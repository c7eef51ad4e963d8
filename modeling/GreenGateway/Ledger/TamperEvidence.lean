import GreenGateway.Ledger.Reachable
import Mathlib.Data.Set.Function

/-! The ledger is tamper-evident: tables that verify are determined by the record hash
their pointer names, as far as the digest has no collision on what they hold. -/

namespace GreenGateway.Ledger

open Foundation Config List

section Tables

variable [Codecs] {database : Database} {maxRevisions : Nat} {walk : Walk}

/-- The frame a record's hash is taken of. -/
def recordFrame (record : String) : List UInt8 :=
  framed "semantic" recordMediaType recordSchemaVersion (utf8 record)

/-- Everything a digest of the tables is taken of: documents and framed records. -/
def hashed (database : Database) : Set (List UInt8) :=
  { bytes | (∃ row ∈ database.documents, row.2 = bytes) ∨
    ∃ row ∈ database.revisions, recordFrame row.record = bytes }

/-- What tables that verify hold: the chain of their records, in sequence. -/
structure Holds (database : Database) (chain : List Entry) (head : Entry) : Prop where
  rows : database.revisions.Perm (chain.map Entry.row)
  history : History Linked chain
  last : chain.getLast? = some head
  pointed : database.pointer.map Pointer.desiredRecordHash = some head.summary.recordHash
  pinned : ∀ row ∈ database.documents, sha256Pin row.2 = row.1
  documents : ∀ pin, pin ∈ database.documents.map Prod.fst ↔ ∃ entry ∈ chain, pin ∈ entry.pins
  requests : database.requests ⊆ chain.filterMap Entry.requestRow
  requestCount : database.requests.length = (chain.filterMap Entry.requestRow).length

end Tables

section Chains

variable [Codecs]

end Chains

section Evidence

variable [Codecs] {left right database : Database} {chain : List Entry} {head : Entry}

theorem Holds.stored (holds : Holds database chain head) {pin : String}
    (recorded : ∃ entry ∈ chain, pin ∈ entry.pins) :
    ∃ bytes ∈ hashed database, database.documents.lookup pin = some bytes ∧
      sha256Pin bytes = pin := by
  obtain ⟨row, member, rfl⟩ := List.mem_map.mp ((holds.documents pin).mpr recorded)
  obtain ⟨bytes, found⟩ : ∃ bytes, database.documents.lookup row.1 = some bytes := by
    rw [← Option.ne_none_iff_exists', ne_eq, lookup_none_iff, not_not]
    exact mem_map_of_mem member
  have stored : (row.1, bytes) ∈ database.documents := by
    obtain ⟨before, after, split, -⟩ := List.lookup_eq_some_iff.mp found
    simp [split]
  exact ⟨bytes, .inl ⟨_, stored, rfl⟩, found, holds.pinned _ stored⟩

end Evidence

section Sample

attribute [local instance] sampleCodecs

end Sample

end GreenGateway.Ledger
