import Estate.Proofs.View.Pages

namespace Estate

namespace Pager

variable {α : Type} {items : List α}

def numbered (size : UInt64) (number : Nat) : Pager := ⟨.ofNat number, some size⟩

/-- How the pages of a size cut up a list: each is what stands at its positions, as far as there is
anything, and enough of them from the first on are the whole list. -/
structure Partitions (size : UInt64) (items : List α) : Prop where
  sliced (page : UInt64) (index : Nat) : (apply ⟨page, some size⟩ items).items[index]? =
    if index < size.toNat then items[page.toNat * size.toNat + index]? else none
  beyond (page : UInt64) (past : items.length ≤ page.toNat * size.toNat) :
    (apply ⟨page, some size⟩ items).items = []
  counted (page : UInt64) : (apply ⟨page, some size⟩ items).total = items.length
  joined (count : Nat) (numbers : count ≤ UInt64.size)
    (enough : items.length ≤ count * size.toNat) :
    (List.range count).flatMap (fun number => (apply (numbered size number) items).items) = items

/-- A page begins where unbounded arithmetic has it, for a position past the words is past the items
as well. -/
theorem items_apply (few : items.length < UInt64.size) (page size : UInt64) :
    (apply ⟨page, some size⟩ items).items =
      (items.drop (page.toNat * size.toNat)).take size.toNat := by
  have begins : items.drop (offset ⟨page, some size⟩) = items.drop (page.toNat * size.toNat) := by
    simp only [offset]
    rcases Nat.le_total (page.toNat * size.toNat) (UInt64.size - 1) with within | past
    · rw [Nat.min_eq_left within]
    · have last : items.length ≤ UInt64.size - 1 := Nat.le_pred_of_lt few
      rw [Nat.min_eq_right past, List.drop_eq_nil_of_le last,
        List.drop_eq_nil_of_le (Nat.le_trans last past)]
  rw [apply, begins]

/-- Slices of one length from the beginning on come to the beginning. -/
theorem flatMap_slices (items : List α) (length count : Nat) :
    (List.range count).flatMap (fun number => (items.drop (number * length)).take length) =
      items.take (count * length) := by
  induction count with
  | zero => simp
  | succ count ih =>
    rw [List.range_succ, List.flatMap_append, ih, Nat.succ_mul, List.take_add]
    simp

theorem partitions (few : items.length < UInt64.size) (size : UInt64) : Partitions size items where
  sliced page index := by
    rw [items_apply few, List.getElem?_take, List.getElem?_drop]
  beyond page past := by
    rw [items_apply few, List.drop_eq_nil_of_le past, List.take_nil]
  counted page := total_apply _ items
  joined count numbers enough := by
    have slices : ∀ number ∈ List.range count, (apply (numbered size number) items).items =
        (items.drop (number * size.toNat)).take size.toNat := by
      intro number member
      have word : (UInt64.ofNat number).toNat = number :=
        UInt64.toNat_ofNat_of_lt' (Nat.lt_of_lt_of_le (List.mem_range.mp member) numbers)
      rw [numbered, items_apply few, word]
    rw [List.flatMap_congr slices, flatMap_slices, List.take_of_length_le enough]

end Pager

open Script (AnyView)

def Multiple.shown (settings : Settings) (multiple : Multiple) (graph : Graph) (pager : Pager) :
    Page Entity :=
  let found := graph.reachedBy multiple.position.query
  let visible (entity : Entity) : Bool := settings.isVisible (.entity entity)
  let page := (pager.apply found).items
  { items := page.filter visible,
    total := found.length - page.countP fun entity => !visible entity }

namespace Inventory

variable {inventory : Inventory Empty} {multiple : Multiple}

/-- A page is shown of what is committed, and only a number is taken for it. -/
theorem carryOut_entities (obtained : AnyView.Obtained (.multiple multiple))
    (wellFormed : inventory.store.committed.WellFormed) (pager : Pager) :
    inventory.carryOut (.inquiry (.entities multiple pager)) =
      (.replied
        (.ok (.entities (multiple.shown inventory.settings inventory.store.committed pager))),
    { inventory with store := (inventory.store.begin .readOnly).2 }, []) := by
  have read := @Multiple.entities_eq inventory.settings multiple (inventory.store.begin .readOnly).1
    obtained wellFormed pager
  rw [carryOut_inquiry, Inquiry.answer, read]
  rfl

/-- Pages that are asked for one after another are all of what is committed at first. -/
theorem carryOutAll_entities (obtained : AnyView.Obtained (.multiple multiple))
    (wellFormed : inventory.store.committed.WellFormed) (pagers : List Pager) :
    (inventory.carryOutAll (pagers.map fun pager => .inquiry (.entities multiple pager))).1 =
      (pagers.map (multiple.shown inventory.settings inventory.store.committed)).map fun page =>
        .replied (.ok (.entities page)) := by
  induction pagers generalizing inventory with
  | nil => rfl
  | cons pager rest ih =>
    have later := @ih { inventory with store := (inventory.store.begin .readOnly).2 } wellFormed
    simp only [List.map_cons, carryOutAll, carryOut_entities obtained wellFormed, later]
    rfl

end Inventory

namespace Office

/--
Pages partition what they are cut from. Of a list, if a word counts its items, each page of a size
is what stands at its positions, and the pages from the first on add up to the list. Whatever is
committed and whatever is hidden, so do the pages of a view of several entities: read one after
another, they show all that the view shows on one page, in the same order. And on no page is more
hidden than there is to subtract from.
-/
theorem pages_partition_listings (settings : Settings) (ids : IdSource) (steps : List Step)
    (distinct : ((start settings ids).related steps).Nodup) {multiple : Multiple}
    (obtained : AnyView.Obtained (.multiple multiple)) (size : UInt64) :
    (∀ {α : Type} (items : List α), items.length < UInt64.size → Pager.Partitions size items) ∧
      let inventory := ((start settings ids).run steps).inventory
      let found := inventory.store.committed.reachedBy multiple.position.query
      let visible (entity : Entity) : Bool := inventory.settings.isVisible (.entity entity)
      found.length < UInt64.size →
      ∃ whole : Page Entity,
        (inventory.carryOut (.inquiry (.entities multiple .unlimited))).1 =
          .replied (.ok (.entities whole)) ∧
        whole.items = found.filter visible ∧
        (∀ count ≤ UInt64.size, found.length ≤ count * size.toNat →
          ∃ pages : List (Page Entity),
            (inventory.carryOutAll ((List.range count).map fun number =>
              .inquiry (.entities multiple (.numbered size number)))).1 =
                pages.map (fun page => .replied (.ok (.entities page))) ∧
            pages.flatMap (·.items) = whole.items) ∧
        ∀ pager : Pager, ∃ page : Page Entity,
          (inventory.carryOut (.inquiry (.entities multiple pager))).1 = .replied
            (.ok (.entities page)) ∧
          let hidden := (pager.apply found).items.countP fun entity => !visible entity
          hidden ≤ found.length ∧ page.total + hidden = found.length := by
  refine ⟨fun items few => Pager.partitions few size, ?_⟩
  intro inventory found visible few
  obtain ⟨registry, kept⟩ := (kept_start settings ids).run steps distinct fun id new => rfl
  have wellFormed : inventory.store.committed.WellFormed := kept.consistent.committed.toWellFormed
  have shows (pager : Pager) := Inventory.carryOut_entities obtained wellFormed pager
  refine ⟨multiple.shown inventory.settings inventory.store.committed .unlimited, ?_, rfl,
    fun count numbers enough => ?_,
      fun pager => ⟨multiple.shown inventory.settings inventory.store.committed pager, ?_, ?_⟩⟩
  · rw [shows]
  · let pagers := (List.range count).map (Pager.numbered size)
    refine ⟨pagers.map (multiple.shown inventory.settings inventory.store.committed), ?_, ?_⟩
    · rw [← Inventory.carryOutAll_entities obtained wellFormed, List.map_map]
      rfl
    · have joined := (Pager.partitions few size).joined count numbers enough
      calc (pagers.map (multiple.shown inventory.settings
        inventory.store.committed)).flatMap (·.items)
        _ = (List.range count).flatMap fun number =>
              ((Pager.numbered size number).apply found).items.filter visible := by
          rw [List.flatMap_map, List.flatMap_map]
          rfl
        _ = found.filter visible := by rw [← List.filter_flatMap, joined]
  · rw [shows]
  · intro hidden
    have least : hidden ≤ found.length :=
      Nat.le_trans List.countP_le_length (pager.items_sublist found).length_le
    exact ⟨least, Nat.sub_add_cancel least⟩

/-- With the first of two tenants hidden, pages of one each show the second between them, and so
does any further page. -/
theorem neighbours_leafed :
    let inventory := ((start (veiling "attic") .counter).run neighbours).inventory
    ((start (veiling "attic") .counter).related neighbours).Nodup ∧
      ∃ pages : List (Page Entity),
        (inventory.carryOutAll ((List.range 3).map fun number => .inquiry
          (.entities tenants.all (.numbered 1 number)))).1 =
          pages.map (fun page => .replied (.ok (.entities page))) ∧
        (pages.flatMap (·.items)).map (·.id) = ["bridge"] := by
  intro inventory
  have facts : ((start (veiling "attic") .counter).related neighbours).Nodup ∧
      (inventory.store.committed.reachedBy tenants.all.position.query).length = 2 ∧
      ((inventory.store.committed.reachedBy tenants.all.position.query).filter fun entity =>
        inventory.settings.isVisible (.entity entity)).map (·.id) = ["bridge"] := by decide +kernel
  obtain ⟨distinct, two, visible⟩ := facts
  obtain ⟨whole, -, items, leafed, -⟩ :=
    (pages_partition_listings (veiling "attic") .counter neighbours distinct
    (@AnyView.Obtained.move _ (.multiple tenants.all) .all .tenants rfl) 1).2 (two ▸ by decide)
  obtain ⟨pages, read, joined⟩ := leafed 3 (by decide) (two ▸ by decide)
  exact ⟨distinct, pages, read, by rw [joined, items, visible]⟩

end Office

end Estate
