import Torium.Faucet.JournalFile

/-!
# Reading back the journal

The journal keeps its place in the chain: the number and the hash of the last entry. Entries that
are appended are read back exactly if their strings are valid UTF-8 and their lines are short
enough. Other strings are written with a replacement character, so the hash that was computed
for them is not the hash of what is read.
-/

namespace Torium.Faucet

open Utf8 Json

/-! ## Places in the chain -/

/-- The hash at the end of a file with the given entries. -/
def headHash (entries : List Record) : GoString :=
  HashChain.head Record.hash journalGenesisHash entries

/-- A hash as it stands in an entry. -/
structure IsHash (s : GoString) : Prop where
  length : s.length = 64
  plain : Plain s

theorem isHash_genesis : IsHash journalGenesisHash where
  length := List.length_replicate
  plain b member := by
    rw [List.eq_of_mem_replicate member]
    decide

theorem length_hexDigits (width n : Nat) : (hexDigits width n).length = width := by
  induction width generalizing n with
  | zero => rfl
  | succ width ih => rw [hexDigits, List.length_append, ih, List.length_singleton]

theorem isHash_hexString (sum : BitVec 256) : IsHash (hexString sum) where
  length := length_hexDigits 64 _
  plain b member := by
    have digit := hexDigits_digits member
    simp only [UInt8.le_iff_toNat_le, UInt8.reduceToNat] at digit
    simp only [isPlain, Bool.and_eq_true, decide_eq_true_eq, UInt8.le_iff_toNat_le,
      UInt8.lt_iff_toNat_lt, UInt8.reduceToNat, ne_eq, ← UInt8.toNat_inj]
    omega

theorem Plain.valid {s : GoString} (plain : Plain s) : Valid s := by
  refine valid_of_ascii fun b member => ?_
  have here := plain b member
  simp only [isPlain, Bool.and_eq_true, decide_eq_true_eq] at here
  exact here.1.1.1.1.1.2

variable {call : AppendCall} {entry : Record}

section Places

variable [Sha256]

/-- What is hashed for an entry. -/
def Record.hashInput (record : Record) : GoString := { record with hash := [] }.encoded

theorem Record.Fits.hash {n : Nat} {record : Record} (fits : record.Fits n) :
    record.hash = hexString (Sha256.sum record.hashInput) := by
  obtain ⟨encoded, marshalled, same⟩ := Option.map_eq_some_iff.mp fits.2
  rw [← same, Record.hashInput, Record.encoded, marshalled, Option.getD_some]

theorem Record.Fits.isHash {n : Nat} {record : Record} (fits : record.Fits n) :
    IsHash record.hash := by
  obtain ⟨encoded, -, same⟩ := Option.map_eq_some_iff.mp fits.2
  exact same ▸ isHash_hexString _

theorem isHash_headHash {entries : List Record} (chained : Chained journalGenesisHash 0 entries) :
    IsHash (headHash entries) := by
  obtain rfl | ⟨others, last, rfl⟩ := List.eq_nil_or_concat' entries
  · exact isHash_genesis
  · obtain ⟨-, -, fits⟩ := HashChain.linked_concat.mp chained
    rw [headHash, HashChain.head_concat]
    exact fits.isHash

/-- The journal stands at the end of the given entries. -/
structure JournalFile.At (journal : JournalFile) (entries : List Record) : Prop where
  sequence : journal.sequence = entries.length % 2 ^ 64
  lastHash : journal.lastHash = headHash entries

/-- A call either has a time without a text, and nothing happens, or its entry fits at the end of
the journal, and what happens is up to the file. -/
theorem JournalFile.append_cases (journal : JournalFile) (fault : Fault) (call : AppendCall) :
    (¬ (Stamp.mk call.at_.instant 0).Encodable ∧
      journal.append fault call = (journal, .error .hash)) ∨
    (Stamp.mk call.at_.instant 0).Encodable ∧ ∃ entry,
      entry = call.entry ((journal.sequence + 1) % 2 ^ 64) journal.lastHash entry.hash ∧
      entry.Fits (journal.sequence + 1) ∧
      journal.append fault call =
        match fault with
        | .write written =>
          ({ journal with file := journal.file ++ (entry.encoded ++ [10]).take written },
            .error .write)
        | .sync => ({ journal with file := journal.file ++ (entry.encoded ++ [10]) }, .error .sync)
        | .none =>
          ({ sequence := entry.sequence, lastHash := entry.hash
             file := journal.file ++ (entry.encoded ++ [10]) }, .ok entry) := by
  cases hashed : (call.entry ((journal.sequence + 1) % 2 ^ 64) journal.lastHash []).entryHash with
  | none =>
    left
    refine ⟨fun encodable => ?_, by simp only [JournalFile.append, hashed]⟩
    exact absurd (Option.map_eq_none_iff.mp hashed)
      (Option.ne_none_iff_exists'.mpr ⟨_, Record.marshal_of_encodable encodable⟩)
  | some hash =>
    let entry := call.entry ((journal.sequence + 1) % 2 ^ 64) journal.lastHash hash
    have fits : entry.Fits (journal.sequence + 1) := ⟨rfl, hashed⟩
    refine .inr ⟨(Record.marshal_eq fits.marshal).1, entry, rfl, fits, ?_⟩
    have written : ({ call.entry ((journal.sequence + 1) % 2 ^ 64) journal.lastHash [] with
        hash } : Record).marshal = some entry.encoded := fits.marshal
    simp only [JournalFile.append, hashed, written]
    cases fault <;> rfl

theorem JournalFile.append_ok {journal journal' : JournalFile} {fault : Fault}
    (appended : journal.append fault call = (journal', .ok entry)) :
    entry = call.entry ((journal.sequence + 1) % 2 ^ 64) journal.lastHash entry.hash ∧
      entry.Fits (journal.sequence + 1) ∧
      journal' = { sequence := entry.sequence, lastHash := entry.hash
                   file := journal.file ++ (entry.encoded ++ [10]) } := by
  obtain ⟨-, failed⟩ | ⟨-, written, same, fits, result⟩ := journal.append_cases fault call
  · rw [failed] at appended
    cases appended
  · rw [result] at appended
    cases fault with
    | none =>
      obtain ⟨rfl, done⟩ := Prod.mk.inj appended
      obtain rfl := Except.ok.inj done
      exact ⟨same, fits, rfl⟩
    | write | sync => cases appended

/-- A time with a year of four digits can be appended. -/
theorem JournalFile.append_of_encodable (journal : JournalFile)
    (encodable : (Stamp.mk call.at_.instant 0).Encodable) :
    ∃ journal' entry, journal.append .none call = (journal', .ok entry) := by
  obtain ⟨not, -⟩ | ⟨-, entry, -, -, result⟩ := journal.append_cases .none call
  · exact absurd encodable not
  · exact ⟨_, _, result⟩

/-- A call that succeeds puts its entry at the end of the chain. -/
theorem JournalFile.At.append {journal journal' : JournalFile} {fault : Fault}
    {entries : List Record} (place : journal.At entries)
    (appended : journal.append fault call = (journal', .ok entry)) :
    entry = call.entry ((entries.length + 1) % 2 ^ 64) (headHash entries) entry.hash ∧
      Chained (headHash entries) entries.length [entry] ∧ journal'.At (entries ++ [entry]) ∧
      journal'.file = journal.file ++ (entry.encoded ++ [10]) := by
  obtain ⟨same, fits, rfl⟩ := JournalFile.append_ok appended
  have next : (journal.sequence + 1) % 2 ^ 64 = (entries.length + 1) % 2 ^ 64 := by
    rw [place.sequence]
    exact Nat.mod_add_mod _ _ _
  rw [next, place.lastHash] at same
  have here : entry.Fits (entries.length + 1) := ⟨fits.1.trans next, fits.2⟩
  refine ⟨same, ⟨by rw [same]; rfl, here, trivial⟩, ⟨?_, ?_⟩, rfl⟩
  · rw [List.length_append, List.length_singleton]
    exact here.1
  · rw [headHash, HashChain.head_concat]

end Places

/-! ## Entries that can be read -/

/-- A call whose strings are valid UTF-8 and whose line fits into the buffer of the reader. The
length of the line does not depend on the hashes, which all have the same length. -/
structure AppendCall.Readable (call : AppendCall) (line : Nat) : Prop where
  type : Valid call.type
  payload : ∀ map ∈ call.payload, ∀ pair ∈ map.pairs, Valid pair.1 ∧ Valid pair.2
  short : (call.entry (line % 2 ^ 64) journalGenesisHash journalGenesisHash).encoded.length <
    maxTokenSize

theorem AppendCall.length_encoded (call : AppendCall) (sequence : Nat)
    {prevHash hash prevHash' hash' : GoString} (prevHashes : IsHash prevHash ∧ IsHash prevHash')
    (hashes : IsHash hash ∧ IsHash hash') :
    (call.entry sequence prevHash hash).encoded.length =
      (call.entry sequence prevHash' hash').encoded.length := by
  have same : (call.entry sequence prevHash hash).at_ = (call.entry sequence prevHash' hash').at_ :=
    rfl
  by_cases encodable : (call.entry sequence prevHash hash).at_.Encodable
  · have quoted {s : GoString} (isHash : IsHash s) : (quote s).length = 66 := by
      rw [quote, escape_plain isHash.plain, List.length_append, List.length_cons, isHash.length]
      rfl
    rw [Record.encoded, Record.encoded, Record.marshal_of_encodable encodable,
      Record.marshal_of_encodable (same ▸ encodable)]
    simp [Record.members, objectText, commaSeparated, memberText, AppendCall.entry,
      quoted prevHashes.1, quoted prevHashes.2, quoted hashes.1, quoted hashes.2]
  · rw [Record.encoded, Record.encoded, Record.marshal_of_not_encodable encodable,
      Record.marshal_of_not_encodable (same ▸ encodable)]

/-- An entry at its place can be read exactly if its call is readable. -/
theorem AppendCall.readable_iff {line : Nat} {prevHash hash : GoString}
    (prevHashes : IsHash prevHash) (hashes : IsHash hash) :
    (call.entry (line % 2 ^ 64) prevHash hash).Clean ∧
        (call.entry (line % 2 ^ 64) prevHash hash).encoded.length < maxTokenSize ↔
      call.Readable line := by
  have length := call.length_encoded (line % 2 ^ 64) ⟨prevHashes, isHash_genesis⟩
    ⟨hashes, isHash_genesis⟩
  constructor
  · rintro ⟨clean, short⟩
    exact ⟨clean.type, clean.payload, length ▸ short⟩
  · rintro ⟨type, payload, short⟩
    exact ⟨⟨Nat.mod_lt _ (by decide), type, payload, prevHashes.plain.valid, hashes.plain.valid⟩,
      length ▸ short⟩

/-! ## Round trip -/

section RoundTrip

variable [Sha256]

/-- A journal that is opened without a file. -/
def JournalFile.fresh : JournalFile :=
  { sequence := 0, lastHash := journalGenesisHash, file := [] }

/-- A call that succeeds. -/
def JournalFile.succeed (journal : JournalFile) (call : AppendCall) :
    Option (JournalFile × Record) :=
  match journal.append .none call with
  | (journal, .ok entry) => some (journal, entry)
  | (_, .error _) => none

/-- Calls that all succeed: the journal afterwards and the entries that are returned. -/
def JournalFile.appendAll (journal : JournalFile) :
    List AppendCall → Option (JournalFile × List Record)
  | [] => some (journal, [])
  | call :: calls => do
      let (journal, entry) ← journal.succeed call
      let (journal, entries) ← journal.appendAll calls
      pure (journal, entry :: entries)

theorem JournalFile.append_of_succeed {journal journal' : JournalFile}
    (done : journal.succeed call = some (journal', entry)) :
    journal.append .none call = (journal', .ok entry) := by
  unfold JournalFile.succeed at done
  split at done
  · rename_i same
    obtain ⟨rfl, rfl⟩ := Prod.mk.inj (Option.some.inj done)
    exact same
  · cases done

/-- Appending one call after another keeps the place in the chain and adds lines to the file. -/
theorem JournalFile.At.appendAll {journal journal' : JournalFile} {calls : List AppendCall}
    {old new : List Record} (place : journal.At old)
    (chained : Chained journalGenesisHash 0 old)
    (appended : journal.appendAll calls = some (journal', new)) :
    Chained (headHash old) old.length new ∧
      journal'.file = journal.file ++ joinLines (new.map Record.encoded) ∧
      ((∀ entry ∈ new, entry.Clean ∧ entry.encoded.length < maxTokenSize) ↔
        ∀ (i : Nat) (call : AppendCall), calls[i]? = some call →
          call.Readable (old.length + i + 1)) := by
  induction calls generalizing journal old new with
  | nil =>
    obtain ⟨rfl, rfl⟩ := Prod.mk.inj (Option.some.inj appended)
    simp [Chained, HashChain.Linked, joinLines]
  | cons call calls ih =>
    simp only [JournalFile.appendAll, bind, Option.bind_eq_some_iff, pure, Option.some.injEq,
      Prod.mk.injEq] at appended
    obtain ⟨⟨journal₁, entry⟩, first, ⟨_, rest⟩, later, rfl, rfl⟩ := appended
    obtain ⟨same, ⟨link, fits, -⟩, place₁, file₁⟩ :=
      place.append (JournalFile.append_of_succeed first)
    have chained₁ : Chained journalGenesisHash 0 (old ++ [entry]) :=
      HashChain.linked_concat.mpr ⟨chained, link, (Nat.zero_add old.length).symm ▸ fits⟩
    obtain ⟨chain, file, readable⟩ := ih place₁ chained₁ later
    rw [headHash, HashChain.head_concat, List.length_append, List.length_singleton] at chain
    refine ⟨⟨link, fits, chain⟩, ?_, ?_⟩
    · rw [file, file₁]
      simp [joinLines]
    · have head : entry.Clean ∧ entry.encoded.length < maxTokenSize ↔
          call.Readable (old.length + 1) := by
        rw [same]
        exact AppendCall.readable_iff (isHash_headHash chained) fits.isHash
      rw [List.length_append, List.length_singleton] at readable
      refine List.forall_mem_cons.trans ((and_congr head readable).trans ?_)
      have shift (i : Nat) : old.length + 1 + i + 1 = old.length + (i + 1) + 1 := by omega
      constructor
      · rintro ⟨here, others⟩ i other among
        cases i with
        | zero => exact Option.some.inj among ▸ here
        | succ i => exact shift i ▸ others i other among
      · intro all
        exact ⟨all 0 call rfl, fun i other among => shift i ▸ all (i + 1) other among⟩

variable [TimeParser]

/-- The entries of a new journal are read back from its file exactly if every call had valid
strings and a line that fits into the buffer of the reader. -/
theorem journal_round_trip_iff {calls : List AppendCall} {journal : JournalFile}
    {entries : List Record}
    (appended : JournalFile.fresh.appendAll calls = some (journal, entries)) :
    readJournal (some journal.file) = .ok entries ↔
      ∀ (i : Nat) (call : AppendCall), calls[i]? = some call → call.Readable (i + 1) := by
  have start : JournalFile.fresh.At [] := ⟨rfl, rfl⟩
  obtain ⟨chained, file, readable⟩ := start.appendAll trivial appended
  have empty : readJournal (some []) = .ok [] := rfl
  have read := read_written (.inl rfl) empty chained
  rw [file]
  refine (read.trans readable).trans ?_
  simp only [List.length_nil, Nat.zero_add]

end RoundTrip

namespace Demo

/-- SHA-256 on what is hashed for two entries. -/
@[reducible] def sha256 : Sha256 where
  sum s :=
    if s.take 13 = text "\x7b\"sequence\":1" then
      0xe6d71f75301fec2730acce178aa5d497a94d6516d5be17af2af1bdbb4555c718
    else 0x4f80d286d235fa844ddac501d0fa2322aa4e0861001e492cc2e68306a32d02b7

@[reducible] def timeParser : TimeParser := ⟨fun _ => none⟩

/-- A failure whose reason is not UTF-8. -/
def invalidReason : AppendCall where
  type := text "tx-failed"
  at_ := { instant := 63900000000 * second }
  payload := some (.ofList [(text "requestId", text "r1"), (text "reason", [0xFF])])

def paused : AppendCall where
  type := text "service-paused"
  at_ := { instant := 63900000000120 * 1000000, offset := 60 }
  payload := some (.ofList [(text "reason", text "maintenance")])

def resumed : AppendCall where
  type := text "service-resumed"
  at_ := { instant := 63900000060120 * 1000000 }
  payload := some .empty

theorem valid_of_all {s : GoString} (small : s.all (· < 0x80)) : Valid s :=
  valid_of_ascii fun b member => of_decide_eq_true (List.all_eq_true.mp small b member)

theorem paused_readable : paused.Readable 1 := by
  refine ⟨valid_of_all (by decide), ?_, by decide +kernel⟩
  rintro map ⟨⟩ pair member
  obtain rfl := List.mem_singleton.mp (SortedMap.mem_ofList member)
  exact ⟨valid_of_all (by decide), valid_of_all (by decide)⟩

theorem resumed_readable : resumed.Readable 2 := by
  refine ⟨valid_of_all (by decide), ?_, by decide +kernel⟩
  rintro map ⟨⟩ pair ⟨⟩

end Demo

/-- A reason that is not UTF-8 makes the file unreadable. -/
theorem invalid_reason_not_read_back :
    letI := Demo.sha256
    letI := Demo.timeParser
    ∃ journal entry, JournalFile.fresh.append .none Demo.invalidReason = (journal, .ok entry) ∧
      readJournal (some journal.file) ≠ .ok [entry] := by
  let := Demo.sha256
  let := Demo.timeParser
  obtain ⟨journal, entry, appended⟩ := JournalFile.fresh.append_of_encodable
    (show (Stamp.mk Demo.invalidReason.at_.instant 0).Encodable by decide +kernel)
  refine ⟨journal, entry, appended, fun read => ?_⟩
  have start : JournalFile.fresh.At [] := ⟨rfl, rfl⟩
  obtain ⟨same, chained, -, file⟩ := start.append appended
  have empty : readJournal (some []) = .ok [] := rfl
  have lines : journal.file = [] ++ joinLines ([entry].map Record.encoded) := by
    rw [file]
    simp [JournalFile.fresh, joinLines]
  rw [lines] at read
  obtain ⟨clean, -⟩ := (read_written (.inl rfl) empty chained).mp read entry
    (List.mem_singleton_self _)
  rw [same] at clean
  have valid := (clean.payload _ rfl (text "reason", [0xFF]) (by decide +kernel)).2
  exact absurd (valid.runeLength_pos (by decide)) (by decide)

theorem journal_round_trip_iff_demo :
    letI := Demo.sha256
    letI := Demo.timeParser
    ∃ journal entries,
      JournalFile.fresh.appendAll [Demo.paused, Demo.resumed] = some (journal, entries) ∧
        readJournal (some journal.file) = .ok entries := by
  let := Demo.sha256
  let := Demo.timeParser
  have appended : (JournalFile.fresh.appendAll [Demo.paused, Demo.resumed]).isSome := by
    decide +kernel
  obtain ⟨⟨journal, entries⟩, appended⟩ := Option.isSome_iff_exists.mp appended
  refine ⟨journal, entries, appended, (journal_round_trip_iff appended).mpr ?_⟩
  rintro (_ | _ | i) call among
  · exact Option.some.inj among ▸ Demo.paused_readable
  · exact Option.some.inj among ▸ Demo.resumed_readable
  · cases among

end Torium.Faucet
