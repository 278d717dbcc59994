import Estate.Blueprint
import Estate.Double
import Estate.Double.Rounding
import Estate.Double.Shortest
import Estate.Entity
import Estate.Error
import Estate.Graph
import Estate.Graph.InPlace
import Estate.Graph.Walk
import Estate.Ids
import Estate.Inventory
import Estate.Json
import Estate.Json.Number
import Estate.Json.Reader
import Estate.Json.Writer
import Estate.Kind
import Estate.Notice
import Estate.Notifier
import Estate.Paging
import Estate.Path
import Estate.Path.Text
import Estate.Proofs.Graph.Alike
import Estate.Proofs.Graph.Changes
import Estate.Proofs.Graph.Containment
import Estate.Proofs.Graph.Elements
import Estate.Proofs.Graph.Frames
import Estate.Proofs.Graph.InPlace
import Estate.Proofs.Graph.Independence
import Estate.Proofs.Graph.Lookups
import Estate.Proofs.Graph.Meaning
import Estate.Proofs.Graph.Reach
import Estate.Proofs.Graph.Removals
import Estate.Proofs.Graph.Replacing
import Estate.Proofs.Graph.WellFormed
import Estate.Proofs.Notifier.Delivery
import Estate.Proofs.Notifier.Gathering
import Estate.Proofs.Path
import Estate.Proofs.Path.Bytes
import Estate.Proofs.Path.Language
import Estate.Proofs.Path.Order
import Estate.Proofs.Path.Text
import Estate.Proofs.Query.Products
import Estate.Proofs.Revision
import Estate.Proofs.Serial.Elements
import Estate.Proofs.Serial.Records
import Estate.Proofs.Serial.Roundtrip
import Estate.Proofs.Serial.Values
import Estate.Proofs.Store.Acts
import Estate.Proofs.Store.Consistency
import Estate.Proofs.Store.Drafting
import Estate.Proofs.Store.InPlace
import Estate.Proofs.Store.Interchange
import Estate.Proofs.Store.Queries
import Estate.Proofs.Store.Registry
import Estate.Proofs.Store.Reissue
import Estate.Proofs.Store.Replay
import Estate.Proofs.Store.Successes
import Estate.Proofs.Store.Tidy
import Estate.Proofs.Store.Traffic
import Estate.Proofs.Store.Twins
import Estate.Proofs.Store.Updates
import Estate.Proofs.View.Association
import Estate.Proofs.View.Composition
import Estate.Proofs.View.Creation
import Estate.Proofs.View.Deeds
import Estate.Proofs.View.Deletion
import Estate.Proofs.View.Descent
import Estate.Proofs.View.Discipline
import Estate.Proofs.View.Effects
import Estate.Proofs.View.Events
import Estate.Proofs.View.Failures
import Estate.Proofs.View.Groups
import Estate.Proofs.View.Hierarchy
import Estate.Proofs.View.Hindrances
import Estate.Proofs.View.Kinds
import Estate.Proofs.View.Leafing
import Estate.Proofs.View.Ledger
import Estate.Proofs.View.Linking
import Estate.Proofs.View.Lookup
import Estate.Proofs.View.Meeting
import Estate.Proofs.View.Mutations
import Estate.Proofs.View.Office
import Estate.Proofs.View.Operations
import Estate.Proofs.View.Pages
import Estate.Proofs.View.Picking
import Estate.Proofs.View.Positions
import Estate.Proofs.View.Prizes
import Estate.Proofs.View.Races
import Estate.Proofs.View.Relations
import Estate.Proofs.View.Rush
import Estate.Proofs.View.Tenancy
import Estate.Proofs.View.Undisturbed
import Estate.Proofs.View.Updating
import Estate.Proofs.View.Visibility
import Estate.Query
import Estate.Query.Builder
import Estate.Query.Text
import Estate.Relationship
import Estate.Revision
import Estate.Script
import Estate.Script.Run
import Estate.Script.Session
import Estate.Script.StoreSteps
import Estate.Serial
import Estate.Serial.Element
import Estate.Serial.Query
import Estate.Serial.Value
import Estate.Settings
import Estate.Settings.Text
import Estate.Store
import Estate.Store.InPlace
import Estate.Store.Reads
import Estate.Store.Writes
import Estate.Table
import Estate.Text.Quoted
import Estate.Text.Unseen
import Estate.Value
import Estate.View
import Estate.View.Associate
import Estate.View.Manage
import Estate.View.Reads
import Estate.View.Relate
