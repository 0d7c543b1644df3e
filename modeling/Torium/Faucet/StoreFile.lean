import Torium.Faucet.Durability
import Torium.Faucet.Restart

/-!
# The file behind the store

The store works with the list of entries that it has appended. The file holds the JSON lines of
these entries: appending to the one is appending to the other. What is read from the file are the
same entries up to the order in which their payloads are kept, which no entry that is applied
depends on.
-/

namespace Torium.Faucet

open Utf8 Json Evm

/-! ## Entries and records -/

def EntryType.name : EntryType → GoString
  | .requestAccepted => text "request-accepted"
  | .requestDenied => text "request-denied"
  | .txSubmitted => text "tx-submitted"
  | .txConfirmed => text "tx-confirmed"
  | .txFailed => text "tx-failed"
  | .servicePaused => text "service-paused"
  | .serviceResumed => text "service-resumed"
  | .signerRotated => text "signer-rotated"
  | .refillObserved => text "refill-observed"
  | .other name => name

/-- The types that have a meaning. -/
def EntryType.known : List EntryType :=
  [.requestAccepted, .requestDenied, .txSubmitted, .txConfirmed, .txFailed, .servicePaused,
   .serviceResumed, .signerRotated, .refillObserved]

def EntryType.ofName (name : GoString) : EntryType :=
  (EntryType.known.find? (·.name = name)).getD (.other name)

theorem EntryType.ofName_name {type : EntryType} (known : type ∈ EntryType.known) :
    EntryType.ofName type.name = type := by
  decide +revert

theorem EntryType.name_ofName (name : GoString) : (EntryType.ofName name).name = name := by
  unfold EntryType.ofName
  cases found : EntryType.known.find? (·.name = name) with
  | none => rfl
  | some type => simpa using List.find?_some found

/-- The record that is written for an entry. -/
def Entry.record (entry : Entry) : Record where
  sequence := entry.sequence % 2 ^ 64
  at_ := { instant := entry.at_ }
  type := entry.type.name
  payload := some (.ofList entry.payload)
  prevHash := entry.prevHash
  hash := entry.hash

/-- The entry that is read. -/
def Record.entry (record : Record) : Entry where
  sequence := record.sequence
  at_ := record.at_.instant
  type := .ofName record.type
  payload := (record.payload.map (·.pairs)).getD []
  prevHash := record.prevHash
  hash := record.hash

/-- Entries that are applied in the same way. -/
structure Entry.Equivalent (first second : Entry) : Prop where
  at_ : first.at_ = second.at_
  type : first.type = second.type
  get : ∀ key, first.payload.get key = second.payload.get key

theorem Entry.equivalent_record (entry : Entry) (known : entry.type ∈ EntryType.known) :
    entry.record.entry.Equivalent entry where
  at_ := rfl
  type := EntryType.ofName_name known
  get key := congrArg (Option.getD · []) (SortedMap.lookup_ofList entry.payload (text key))

/-- What is written for an entry that was read is what it was read from. -/
theorem Entry.record_entry (entry : Entry) : entry.record.entry.record = entry.record := by
  have payload := SortedMap.ofList_pairs (SortedMap.ofList entry.payload)
  simp only [Entry.record, Record.entry, EntryType.name_ofName, Nat.mod_mod, Option.map_some,
    Option.getD_some, payload]

theorem Store.applyEntry_equivalent [EthText] {first second : Entry}
    (same : first.Equivalent second) (store : Store) :
    store.applyEntry first = store.applyEntry second := by
  simp only [Store.applyEntry, Store.applyAccepted, Store.applyDenied, Store.applySubmitted,
    Store.applyConfirmed, Store.applyFailed, Store.applyRotated, same.at_, same.type, same.get]

/-- Replay does not depend on the order of the payloads either. -/
theorem Store.replay_equivalent [EthText] {first second : List Entry}
    (same : List.Forall₂ Entry.Equivalent first second) {store result : Store}
    (replayed : store.replay second = .ok result) : store.replay first = .ok result := by
  induction same generalizing store with
  | nil => exact replayed
  | cons head _ ih =>
    rw [Store.replay] at replayed ⊢
    rw [Store.applyEntry_equivalent head]
    split at replayed
    · exact ih replayed
    · cases replayed

/-! ## Appending -/

theorem encodable_iff (t : Time) : (Stamp.mk t 0).Encodable ↔ 0 ≤ t.year ∧ t.year ≤ 9999 := by
  have wall : (Stamp.mk t 0).wall = t := by simp [Stamp.wall]
  rw [Stamp.Encodable, wall]
  constructor
  · rintro ⟨low, high, -⟩
    exact ⟨low, high⟩
  · rintro ⟨low, high⟩
    exact ⟨low, high, Nat.zero_lt_succ _⟩

section Append

variable [Sha256]

/-- The digest of an entry is the hash of its JSON form. -/
instance : Digest := ⟨fun entry => hexString (Sha256.sum entry.record.hashInput)⟩

/-- The file of a journal. -/
def Journal.bytes (journal : Journal) : GoString :=
  joinLines (journal.entries.map fun entry => entry.record.encoded)

/-- The journal with its file. -/
def Journal.onDisk (journal : Journal) : JournalFile where
  sequence := journal.sequence % 2 ^ 64
  lastHash := journal.lastHash
  file := journal.bytes

/-- The call of `Append` for an entry. -/
def Draft.call (draft : Draft) : AppendCall where
  type := draft.type.name
  at_ := { instant := draft.at_ }
  payload := some (.ofList draft.payload)

/-- Appending an entry to the list of entries is appending its line to the file. -/
theorem Journal.append_onDisk {journal journal' : Journal} {type : EntryType} {at_ : Time}
    {payload : Payload} {entry : Entry}
    (appended : journal.append none type at_ payload = .ok (entry, journal')) :
    journal.onDisk.append .none (Draft.call ⟨type, at_, payload⟩) =
      (journal'.onDisk, .ok entry.record) := by
  simp only [Journal.append, entryHash, Evm.bind_eq_ok] at appended
  obtain ⟨hash, hashed, done⟩ := appended
  obtain ⟨rfl, rfl⟩ := Prod.mk.inj (Evm.pure_eq_ok.mp done)
  split_ifs at hashed with year
  obtain rfl := Except.ok.inj hashed
  obtain ⟨not, -⟩ | ⟨-, record, same, fits, result⟩ :=
    journal.onDisk.append_cases .none (Draft.call ⟨type, at_, payload⟩)
  · exact absurd ((encodable_iff at_).mpr year) not
  · have next : (journal.onDisk.sequence + 1) % 2 ^ 64 = (journal.sequence + 1) % 2 ^ 64 :=
      Nat.mod_add_mod _ _ _
    let entry (hash : GoString) : Entry :=
      { sequence := journal.sequence + 1, at_, type, payload, prevHash := journal.lastHash, hash }
    have written : record = (entry record.hash).record := by
      rw [next] at same
      exact same
    have hash : record.hash = Digest.digest (entry []) := by
      rw [fits.hash, written]
      rfl
    have equal : record = (entry (Digest.digest (entry []))).record := hash ▸ written
    have lines : journal.bytes ++ (record.encoded ++ [10]) =
        joinLines ((journal.entries ++ [entry (Digest.digest (entry []))]).map
          fun entry => entry.record.encoded) := by
      rw [equal]
      simp [joinLines, Journal.bytes]
    have disk : ({ sequence := record.sequence, lastHash := record.hash
                   file := journal.bytes ++ (record.encoded ++ [10]) } : JournalFile) =
        Journal.onDisk { journal with
          sequence := journal.sequence + 1, lastHash := Digest.digest (entry [])
          entries := journal.entries ++ [entry (Digest.digest (entry []))] } := by
      rw [lines, equal]
      rfl
    rw [result, ← equal]
    exact Prod.ext disk rfl

end Append

end Torium.Faucet
