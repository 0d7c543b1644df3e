import Torium.Faucet.Go

/-!
# The journal

The journal is an append-only chain of entries. Its file is the list of the
entries that were appended; what an append does besides is to keep the sequence
number and the hash for the next one. The digest of an entry is a parameter. It
is computed from the JSON form of the entry, which exists only for years that
have four digits.
-/

namespace Torium.Faucet

inductive EntryType where
  | requestAccepted
  | requestDenied
  | txSubmitted
  | txConfirmed
  | txFailed
  | servicePaused
  | serviceResumed
  | signerRotated
  | refillObserved
  | other (name : GoString)
  deriving DecidableEq

/-- A map of strings, by its keys and values. -/
abbrev Payload : Type := List (GoString × GoString)

/-- Reading a key; a missing one reads as the empty string. -/
def Payload.get (payload : Payload) (key : String) : GoString :=
  (payload.lookup (text key)).getD []

structure Entry where
  sequence : Nat
  at_ : Time
  type : EntryType
  payload : Payload
  prevHash : GoString
  hash : GoString := []
  deriving DecidableEq

/-- What is to be journaled, before it has its place in the journal. -/
structure Draft where
  type : EntryType
  at_ : Time
  payload : Payload
  deriving DecidableEq

def Entry.draft (entry : Entry) : Draft := ⟨entry.type, entry.at_, entry.payload⟩

/-- The hash of the encoded entry, over all fields but the hash. -/
class Digest where
  digest : Entry → GoString

/-- A digest by the sequence number, for concrete runs. -/
@[reducible] def Digest.numbered : Digest := ⟨fun entry => padded 64 entry.sequence⟩

structure Journal where
  sequence : Nat
  lastHash : GoString
  entries : List Entry
  deriving DecidableEq

def journalGenesisHash : GoString := List.replicate 64 48

inductive JournalError where
  | encode (year : Int)
  | write (message : GoString)
  deriving DecidableEq

section Append

variable [Digest]

def entryHash (entry : Entry) : Except JournalError GoString :=
  if 0 ≤ entry.at_.year ∧ entry.at_.year ≤ 9999 then
    .ok (Digest.digest { entry with hash := [] })
  else .error (.encode entry.at_.year)

/-- `Append`. A write or a sync that fails is given by its message. -/
def Journal.append (journal : Journal) (fault : Option GoString) (type : EntryType) (at_ : Time)
    (payload : Payload) : Except JournalError (Entry × Journal) := do
  let entry : Entry :=
    { sequence := journal.sequence + 1, at_, type, payload, prevHash := journal.lastHash }
  let hash ← entryHash entry
  let entry := { entry with hash }
  match fault with
  | some message => .error (.write message)
  | none =>
    pure (entry, { sequence := entry.sequence, lastHash := entry.hash
                   entries := journal.entries ++ [entry] })

end Append

/-- The journal that is opened on a file with the given entries. -/
def openJournal (entries : List Entry) : Journal :=
  match entries.getLast? with
  | some last => { sequence := last.sequence, lastHash := last.hash, entries }
  | none => { sequence := 0, lastHash := journalGenesisHash, entries }

theorem openJournal_entries (entries : List Entry) : (openJournal entries).entries = entries := by
  unfold openJournal
  cases entries.getLast? <;> rfl

/-- Opening the file again gives the journal back. -/
theorem Journal.append_reopens [Digest] {journal journal' : Journal} {fault : Option GoString}
    {type : EntryType} {at_ : Time} {payload : Payload} {entry : Entry}
    (appended : journal.append fault type at_ payload = .ok (entry, journal')) :
    journal'.entries = journal.entries ++ [entry] ∧ openJournal journal'.entries = journal' ∧
      entry.draft = ⟨type, at_, payload⟩ := by
  simp only [append, Evm.bind_eq_ok] at appended
  obtain ⟨hash, -, done⟩ := appended
  cases fault with
  | some message => exact absurd done nofun
  | none =>
    obtain ⟨rfl, rfl⟩ := Prod.mk.inj (Evm.pure_eq_ok.mp done)
    refine ⟨rfl, ?_, rfl⟩
    simp [openJournal]

end Torium.Faucet
