import Estate.Text.Unseen

namespace Estate.Text.Quoted

def byNumber (c : Char) : List Char := ['\\', 'u', '\x7b'] ++ Nat.toDigits 16 c.toNat ++ ['\x7d']

def escape (c : Char) : List Char :=
  if c = '\x00' then ['\\', '0']
  else if c = '\t' then ['\\', 't']
  else if c = '\n' then ['\\', 'n']
  else if c = '\r' then ['\\', 'r']
  else if c = '"' then ['\\', '"']
  else if c = '\\' then ['\\', '\\']
  else if isUnseen c then byNumber c
  else [c]

def encode (text : String) : String := "\"" ++ String.ofList (text.toList.flatMap escape) ++ "\""

end Estate.Text.Quoted
