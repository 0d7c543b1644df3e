import Torium.Faucet.RoundTrip

/-!
# Faults of the journal file

A write may stop after some bytes and a sync may fail, and later calls go on. `Append` then
returns an error and keeps its place in the chain, but it does not take back what is in the file.
So the file stays in step with the calls exactly as long as a write that fails leaves nothing
behind and no sync fails.
-/

namespace Torium.Faucet

open Utf8 Json

section Runs

variable [Sha256]

/-- One call after the other: the journal afterwards, and the entries of the calls that returned
without an error. -/
def JournalFile.run (journal : JournalFile) :
    List (Fault × AppendCall) → JournalFile × List Record
  | [] => (journal, [])
  | (fault, call) :: steps =>
    let result := journal.append fault call
    let rest := result.1.run steps
    (rest.1, result.2.toOption.toList ++ rest.2)

/-- A call at the given line that leaves the file in step. -/
def Harmless (line : Nat) (fault : Fault) (call : AppendCall) : Prop :=
  (Stamp.mk call.at_.instant 0).Encodable →
    match fault with
    | .none => call.Readable (line + 1)
    | .write written => written = 0
    | .sync => False

/-- Calls that all leave the file in step; a call that succeeds takes up a line. -/
def HarmlessRun (journal : JournalFile) (line : Nat) : List (Fault × AppendCall) → Prop
  | [] => True
  | (fault, call) :: steps =>
    Harmless line fault call ∧
      HarmlessRun (journal.append fault call).1
        (line + (journal.append fault call).2.toOption.toList.length) steps

variable [TimeParser] {entries : List Record} {journal : JournalFile}

/-- The journal stands at the end of a file with the given entries. -/
structure JournalFile.InStep (journal : JournalFile) (entries : List Record) : Prop where
  place : journal.At entries
  terminated : Terminated journal.file
  read : readJournal (some journal.file) = .ok entries

theorem JournalFile.InStep.chained (inStep : journal.InStep entries) :
    Chained journalGenesisHash 0 entries :=
  (readJournal_eq_ok.mp inStep.read).2.2

omit [Sha256] [TimeParser] in
/-- Whatever is not empty has a line. -/
theorem scanFrom_lines_ne_nil {line file : GoString} (nonempty : line ≠ [] ∨ file ≠ [])
    (short : (scanFrom line file).tooLong = false) : (scanFrom line file).lines ≠ [] := by
  induction file generalizing line with
  | nil =>
    rw [scanFrom, if_neg (nonempty.resolve_right (not_not.mpr rfl))] at short ⊢
    rw [Scan.token_of_lt (Scan.tooLong_token.mp short).1]
    exact List.cons_ne_nil _ _
  | cons b file ih =>
    rw [scanFrom] at short ⊢
    split_ifs at short ⊢
    · rw [Scan.token_of_lt (Scan.tooLong_token.mp short).1]
      exact List.cons_ne_nil _ _
    · exact ih (.inl (by simp)) short

/-- A file with more lines than entries is not read as them. -/
theorem not_read_of_more {file more : GoString} (terminated : Terminated file)
    (read : readJournal (some file) = .ok entries) (nonempty : more ≠ []) :
    readJournal (some (file ++ more)) ≠ .ok entries := by
  intro again
  obtain ⟨short, decoded, -⟩ := readJournal_eq_ok.mp read
  obtain ⟨short', decoded', -⟩ := readJournal_eq_ok.mp again
  rw [scanLines_append short terminated] at short' decoded'
  have lines := scanFrom_lines_ne_nil (.inr nonempty) short'
  have lengths := decoded'.length_eq
  rw [List.length_append, ← decoded.length_eq] at lengths
  exact lines (List.length_eq_zero_iff.mp (Nat.left_eq_add.mp lengths.symm))

/-- A call keeps the journal in step exactly if it is harmless. -/
theorem JournalFile.InStep.append_iff (inStep : journal.InStep entries) (fault : Fault)
    (call : AppendCall) :
    readJournal (some (journal.append fault call).1.file) =
        .ok (entries ++ (journal.append fault call).2.toOption.toList) ↔
      Harmless entries.length fault call := by
  obtain ⟨not, result⟩ | ⟨encodable, entry, same, fits, result⟩ := journal.append_cases fault call
  · rw [result]
    refine iff_of_true ?_ fun encodable => absurd encodable not
    exact (List.append_nil entries).symm ▸ inStep.read
  · have harmless : Harmless entries.length fault call ↔ _ := forall_prop_of_true encodable
    rw [harmless]
    cases fault with
    | none =>
      obtain ⟨same, chained, -, -⟩ := inStep.place.append result
      have line : entry.encoded ++ [10] = joinLines ([entry].map Record.encoded) := by
        simp [joinLines]
      rw [result]
      change readJournal (some (journal.file ++ (entry.encoded ++ [10]))) =
        .ok (entries ++ [entry]) ↔ call.Readable (entries.length + 1)
      rw [line, read_written inStep.terminated inStep.read chained, List.forall_mem_singleton,
        same]
      exact AppendCall.readable_iff (isHash_headHash inStep.chained) fits.isHash
    | write written =>
      rw [result]
      change readJournal (some (journal.file ++ (entry.encoded ++ [10]).take written)) =
        .ok (entries ++ []) ↔ written = 0
      rw [List.append_nil]
      constructor
      · intro read
        by_contra some
        refine not_read_of_more inStep.terminated inStep.read ?_ read
        rw [Ne, List.take_eq_nil_iff, not_or]
        exact ⟨some, by simp⟩
      · rintro rfl
        rw [List.take_zero, List.append_nil]
        exact inStep.read
    | sync =>
      rw [result]
      refine iff_of_false ?_ id
      change readJournal (some (journal.file ++ (entry.encoded ++ [10]))) ≠ .ok (entries ++ [])
      rw [List.append_nil]
      exact not_read_of_more inStep.terminated inStep.read (by simp)

/-- A harmless call keeps the journal in step. -/
theorem JournalFile.InStep.append (inStep : journal.InStep entries) {fault : Fault}
    {call : AppendCall} (harmless : Harmless entries.length fault call) :
    (journal.append fault call).1.InStep
      (entries ++ (journal.append fault call).2.toOption.toList) := by
  have read := (inStep.append_iff fault call).mpr harmless
  obtain ⟨-, result⟩ | ⟨encodable, entry, -, -, result⟩ := journal.append_cases fault call
  · rw [result] at read ⊢
    exact ⟨(List.append_nil entries).symm ▸ inStep.place, inStep.terminated, read⟩
  · cases fault with
    | none =>
      obtain ⟨-, -, place, file⟩ := inStep.place.append result
      rw [result] at read ⊢
      exact ⟨place, .inr (by simp), read⟩
    | write written =>
      obtain rfl : written = 0 := harmless encodable
      rw [result] at read ⊢
      refine ⟨(List.append_nil entries).symm ▸ ⟨inStep.place.sequence, inStep.place.lastHash⟩,
        ?_, read⟩
      change Terminated (journal.file ++ [])
      rw [List.append_nil]
      exact inStep.terminated
    | sync => exact absurd encodable harmless

/-- The file is in step after every call exactly if all calls are harmless. -/
theorem JournalFile.InStep.run_iff (inStep : journal.InStep entries)
    (steps : List (Fault × AppendCall)) :
    (∀ done, done <+: steps → readJournal (some (journal.run done).1.file) =
        .ok (entries ++ (journal.run done).2)) ↔
      HarmlessRun journal entries.length steps := by
  induction steps generalizing journal entries with
  | nil =>
    refine iff_of_true ?_ trivial
    intro done initial
    obtain rfl := List.prefix_nil.mp initial
    exact (List.append_nil entries).symm ▸ inStep.read
  | cons step steps ih =>
    obtain ⟨fault, call⟩ := step
    have length : entries.length + (journal.append fault call).2.toOption.toList.length =
        (entries ++ (journal.append fault call).2.toOption.toList).length :=
      List.length_append.symm
    rw [HarmlessRun, length]
    constructor
    · intro all
      have first := all [(fault, call)] (by simp)
      simp only [JournalFile.run, List.append_nil] at first
      have harmless := (inStep.append_iff fault call).mp first
      refine ⟨harmless, (ih (inStep.append harmless)).mp fun done initial => ?_⟩
      have later := all ((fault, call) :: done) (List.cons_prefix_cons.mpr ⟨rfl, initial⟩)
      rw [JournalFile.run, ← List.append_assoc] at later
      exact later
    · rintro ⟨harmless, rest⟩ done initial
      have all := (ih (inStep.append harmless)).mpr rest
      obtain rfl | ⟨done, rfl, within⟩ := List.prefix_cons_iff.mp initial
      · exact (List.append_nil entries).symm ▸ inStep.read
      · rw [JournalFile.run, ← List.append_assoc]
        exact all done within

/-- An opened journal is in step with its file. -/
theorem JournalFile.inStep_of_open {file : Option GoString}
    (opened : JournalFile.open_ file = .ok (journal, entries))
    (terminated : Terminated (file.getD [])) : journal.InStep entries := by
  unfold JournalFile.open_ at opened
  obtain ⟨found, read, opened⟩ := Evm.bind_eq_ok.mp opened
  have here : readJournal (some (file.getD [])) = .ok found := by
    cases file with
    | none => exact read
    | some file => exact read
  obtain ⟨-, -, chained⟩ := readJournal_eq_ok.mp here
  split at opened
  · rename_i last same
    obtain ⟨rfl, rfl⟩ := Prod.mk.inj (Evm.pure_eq_ok.mp opened)
    obtain ⟨front, rfl⟩ := List.getLast?_eq_some_iff.mp same
    obtain ⟨-, -, fits⟩ := HashChain.linked_concat.mp chained
    refine ⟨⟨?_, ?_⟩, terminated, here⟩
    · rw [fits.1, List.length_append, List.length_singleton, Nat.zero_add]
    · rw [headHash, HashChain.head_concat]
  · rename_i same
    obtain ⟨rfl, rfl⟩ := Prod.mk.inj (Evm.pure_eq_ok.mp opened)
    obtain rfl := List.getLast?_eq_none_iff.mp same
    exact ⟨⟨rfl, rfl⟩, terminated, here⟩

/-- On a journal whose file was empty or ended with a newline, the file can be read after every
call, and has the entries of the calls that returned without an error behind the old ones, exactly
if all calls are harmless. -/
theorem journal_durable_iff {file : Option GoString} {journal : JournalFile}
    {entries : List Record} (opened : JournalFile.open_ file = .ok (journal, entries))
    (terminated : Terminated (file.getD [])) (steps : List (Fault × AppendCall)) :
    (∀ done, done <+: steps → readJournal (some (journal.run done).1.file) =
        .ok (entries ++ (journal.run done).2)) ↔
      HarmlessRun journal entries.length steps :=
  (JournalFile.inStep_of_open opened terminated).run_iff steps

end Runs

/-- A write that fails and leaves nothing behind is made up for by calling again. -/
theorem journal_durable_iff_demo :
    letI := Demo.sha256
    letI := Demo.timeParser
    let steps := [(.none, Demo.paused), (.write 0, Demo.resumed), (.none, Demo.resumed)]
    ∀ done, done <+: steps → readJournal (some (JournalFile.fresh.run done).1.file) =
      .ok ([] ++ (JournalFile.fresh.run done).2) := by
  let := Demo.sha256
  let := Demo.timeParser
  have line : 0 + (JournalFile.fresh.append .none Demo.paused).2.toOption.toList.length +
      ((JournalFile.fresh.append .none Demo.paused).1.append (.write 0)
        Demo.resumed).2.toOption.toList.length = 1 := by
    decide +kernel
  have last : Harmless (0 + (JournalFile.fresh.append .none Demo.paused).2.toOption.toList.length +
      ((JournalFile.fresh.append .none Demo.paused).1.append (.write 0)
        Demo.resumed).2.toOption.toList.length) .none Demo.resumed :=
    line.symm ▸ fun _ => Demo.resumed_readable
  exact (journal_durable_iff
    (show JournalFile.open_ none = .ok (JournalFile.fresh, []) from rfl) (.inl rfl) _).mpr
    ⟨fun _ => Demo.paused_readable, fun _ => rfl, last, trivial⟩

/-- A write that stops after one byte leaves a file that cannot be read, and so does going on after
a sync that failed; before that, the entry of the failed call is read. -/
theorem faults_break_journal :
    letI := Demo.sha256
    letI := Demo.timeParser
    (readJournal (some (JournalFile.fresh.run [(.write 1, Demo.paused)]).1.file)).toOption = none ∧
      (JournalFile.fresh.run [(.sync, Demo.paused)]).2 = [] ∧
      (readJournal (some (JournalFile.fresh.run [(.sync, Demo.paused)]).1.file)).toOption ≠
        some [] ∧
      (readJournal (some (JournalFile.fresh.run
        [(.sync, Demo.paused), (.none, Demo.paused)]).1.file)).toOption = none := by
  decide +kernel

end Torium.Faucet
