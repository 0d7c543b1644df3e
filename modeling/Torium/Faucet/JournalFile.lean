import Torium.Faucet.Journal
import Torium.Faucet.Wire
import Torium.Lib.HashChain

/-!
# The journal file

The journal is a file of lines, one JSON object each. Every entry carries the hash of the one
before it and its own hash, over its JSON form with an empty hash. Reading the file checks the
chain from the first line on; a line has to be shorter than the buffer of the reader.

Writing and reading start from two different values of one entry: the one that is appended, and
the one that its JSON form is read as. The file can be read exactly if these are always the same.
-/

namespace Torium.Faucet

open Utf8 Json

/-- The hash function of the chain. -/
class Sha256 where
  sum : GoString → BitVec 256

/-- `hex.EncodeToString`. -/
def hexString (sum : BitVec 256) : GoString := hexDigits 64 sum.toNat

/-! ## Lines -/

/-- The size of the buffer of the reader; a line and its end have to fit. -/
def maxTokenSize : Nat := 1024 * 1024

def dropCR (line : GoString) : GoString := if line.getLast? = some 13 then line.dropLast else line

/-- What the scanner returns: lines, and whether it stopped at one that is too long. -/
structure Scan where
  lines : List GoString
  tooLong : Bool
  deriving DecidableEq

/-- A complete line in front of what is scanned behind it. -/
def Scan.token (line : GoString) (rest : Scan) : Scan :=
  if maxTokenSize ≤ line.length then { lines := [], tooLong := true }
  else { rest with lines := dropCR line :: rest.lines }

/-- Scan a file from within a line. A last line need not have an end. -/
def scanFrom (line : GoString) : GoString → Scan
  | [] => if line = [] then ⟨[], false⟩ else .token line ⟨[], false⟩
  | b :: rest => if b = 10 then .token line (scanFrom [] rest) else scanFrom (line ++ [b]) rest

def scanLines (file : GoString) : Scan := scanFrom [] file

variable {line file : GoString} {record : Record}

theorem scanFrom_line {text : GoString} (whole : 10 ∉ text) (rest : GoString) :
    scanFrom line (text ++ 10 :: rest) = .token (line ++ text) (scanLines rest) := by
  induction text generalizing line with
  | nil => rw [List.nil_append, scanFrom, if_pos rfl, List.append_nil, scanLines]
  | cons b text ih =>
    rw [List.mem_cons, not_or] at whole
    rw [List.cons_append, scanFrom, if_neg (Ne.symm whole.1), ih whole.2, List.append_assoc,
      List.singleton_append]

theorem Scan.tooLong_token {rest : Scan} :
    (Scan.token line rest).tooLong = false ↔ line.length < maxTokenSize ∧ rest.tooLong = false := by
  unfold Scan.token
  split_ifs with long
  · simp [Nat.not_lt.mpr long]
  · simp [Nat.lt_of_not_le long]

theorem Scan.token_of_lt (short : line.length < maxTokenSize) (rest : Scan) :
    Scan.token line rest = ⟨dropCR line :: rest.lines, rest.tooLong⟩ :=
  if_neg (Nat.not_le.mpr short)

/-- Lines behind a complete line are scanned on their own. -/
theorem scanFrom_append (short : (scanFrom line file).tooLong = false)
    (terminated : file.getLast? = some 10) (rest : GoString) :
    scanFrom line (file ++ rest) =
      ⟨(scanFrom line file).lines ++ (scanLines rest).lines, (scanLines rest).tooLong⟩ := by
  induction file generalizing line with
  | nil => cases terminated
  | cons b file ih =>
    rw [List.cons_append, scanFrom, scanFrom]
    rw [scanFrom] at short
    split_ifs at short ⊢ with newline
    · obtain ⟨fits, others⟩ := Scan.tooLong_token.mp short
      rw [Scan.token_of_lt fits, Scan.token_of_lt fits]
      cases file with
      | nil => rfl
      | cons c file =>
        rw [List.getLast?_cons_cons] at terminated
        rw [ih others terminated, List.cons_append]
    · cases file with
      | nil => exact absurd (Option.some.inj terminated) newline
      | cons c file =>
        rw [List.getLast?_cons_cons] at terminated
        exact ih short terminated

/-- A file that is empty or ends with a newline. -/
def Terminated (file : GoString) : Prop := file = [] ∨ file.getLast? = some 10

theorem scanLines_append (short : (scanLines file).tooLong = false) (terminated : Terminated file)
    (rest : GoString) :
    scanLines (file ++ rest) =
      ⟨(scanLines file).lines ++ (scanLines rest).lines, (scanLines rest).tooLong⟩ := by
  obtain rfl | ends := terminated
  · rfl
  · exact scanFrom_append short ends rest

/-- Lines, each with its end. -/
def joinLines (lines : List GoString) : GoString := lines.flatMap (· ++ [10])

/-- A line that a scanner returns as it is. -/
def IsLine (line : GoString) : Prop := 10 ∉ line ∧ line.getLast? ≠ some 13

theorem scanLines_joinLines {lines : List GoString} (whole : ∀ line ∈ lines, IsLine line) :
    ((scanLines (joinLines lines)).tooLong = false ↔ ∀ line ∈ lines, line.length < maxTokenSize) ∧
      ((∀ line ∈ lines, line.length < maxTokenSize) →
        (scanLines (joinLines lines)).lines = lines) := by
  induction lines with
  | nil => exact ⟨⟨fun _ _ member => absurd member (by simp), fun _ => rfl⟩, fun _ => rfl⟩
  | cons line lines ih =>
    obtain ⟨short, same⟩ := ih fun line member => whole line (List.mem_cons_of_mem _ member)
    obtain ⟨noNewline, noReturn⟩ := whole line List.mem_cons_self
    have first : scanLines (joinLines (line :: lines)) =
        .token line (scanLines (joinLines lines)) := by
      have here : joinLines (line :: lines) = line ++ 10 :: joinLines lines := by
        simp [joinLines]
      rw [here, scanLines, scanFrom_line noNewline, List.nil_append]
    rw [first, Scan.tooLong_token, short, List.forall_mem_cons]
    refine ⟨Iff.rfl, ?_⟩
    rintro ⟨fits, others⟩
    rw [Scan.token_of_lt fits, same others, dropCR, if_neg noReturn]

/-! ## Reading -/

inductive ReadError where
  | invalidJSON (line : Nat)
  | breaksChain (line : Nat)
  | wrongSequence (line sequence : Nat)
  | encode (line : Nat)
  | failsHash (line : Nat)
  | scan
  deriving DecidableEq

section Chain

variable [Sha256]

/-- `entryHash`. -/
def Record.entryHash (record : Record) : Option GoString :=
  ({ record with hash := [] }.marshal).map fun encoded => hexString (Sha256.sum encoded)

variable [TimeParser]

/-- Read lines behind an entry with the given hash; `line` of them have been read. -/
def readLines (prevHash : GoString) (line : Nat) : List GoString → Except ReadError (List Record)
  | [] => .ok []
  | bytes :: rest =>
    match Record.unmarshal bytes with
    | none => .error (.invalidJSON (line + 1))
    | some entry =>
      if entry.prevHash ≠ prevHash then .error (.breaksChain (line + 1))
      else if entry.sequence ≠ (line + 1) % 2 ^ 64 then
        .error (.wrongSequence (line + 1) entry.sequence)
      else
        match entry.entryHash with
        | none => .error (.encode (line + 1))
        | some expected =>
          if entry.hash ≠ expected then .error (.failsHash (line + 1))
          else (readLines entry.hash (line + 1) rest).map (entry :: ·)

/-- `ReadJournal`; there may be no file. -/
def readJournal : Option GoString → Except ReadError (List Record)
  | none => .ok []
  | some file =>
    match readLines journalGenesisHash 0 (scanLines file).lines with
    | .error error => .error error
    | .ok entries => if (scanLines file).tooLong then .error .scan else .ok entries

end Chain

/-! ## What is accepted -/

section Accepted

variable [Sha256]

/-- What an entry has to be at its place in the file. -/
def Record.Fits (line : Nat) (record : Record) : Prop :=
  record.sequence = line % 2 ^ 64 ∧ record.entryHash = some record.hash

/-- Entries that follow an entry with the given hash at the given line. -/
def Chained (prevHash : GoString) (line : Nat) (entries : List Record) : Prop :=
  HashChain.Linked Record.prevHash Record.hash Record.Fits prevHash line entries

variable [TimeParser]

/-- Each line is read as the entry at its place. -/
def Decoded (lines : List GoString) (entries : List Record) : Prop :=
  List.Forall₂ (fun line entry => Record.unmarshal line = some entry) lines entries

theorem readLines_eq_ok {prevHash : GoString} {n : Nat} {lines : List GoString}
    {entries : List Record} :
    readLines prevHash n lines = .ok entries ↔
      Decoded lines entries ∧ Chained prevHash n entries := by
  induction lines generalizing prevHash n entries with
  | nil =>
    rw [readLines]
    constructor
    · rintro ⟨⟩
      exact ⟨.nil, trivial⟩
    · rintro ⟨⟨⟩, -⟩
      rfl
  | cons bytes lines ih =>
    rw [readLines]
    constructor
    · intro read
      split at read
      · cases read
      · rename_i entry decoded
        split_ifs at read with link sequence
        split at read
        · cases read
        · rename_i expected hash
          split_ifs at read with same
          cases rest : readLines entry.hash (n + 1) lines with
          | error => rw [rest] at read; cases read
          | ok others =>
            rw [rest] at read
            cases read
            obtain ⟨decodedRest, chainedRest⟩ := ih.mp rest
            exact ⟨.cons decoded decodedRest, not_not.mp link,
              ⟨not_not.mp sequence, hash.trans (congrArg some (not_not.mp same).symm)⟩,
              chainedRest⟩
    · rintro ⟨_ | ⟨decoded, decodedRest⟩, link, ⟨sequence, hash⟩, chainedRest⟩
      simp only [decoded, hash]
      rw [if_neg (not_not.mpr link), if_neg (not_not.mpr sequence), if_neg (not_not.mpr rfl),
        ih.mpr ⟨decodedRest, chainedRest⟩]
      rfl

theorem readJournal_eq_ok {entries : List Record} :
    readJournal (some file) = .ok entries ↔
      (scanLines file).tooLong = false ∧ Decoded (scanLines file).lines entries ∧
        Chained journalGenesisHash 0 entries := by
  rw [readJournal, ← readLines_eq_ok]
  cases readLines journalGenesisHash 0 (scanLines file).lines with
  | error error => simp
  | ok entries =>
    cases (scanLines file).tooLong <;> simp

end Accepted

/-! ## What is written -/

theorem Record.printable_of_marshal (written : record.marshal = some line) : Printable line := by
  have number : Printable (natText record.sequence) := fun b member => by
    have digit := isDigit_of_mem_natText member
    simp only [isDigit, Bool.and_eq_true, decide_eq_true_eq] at digit
    exact UInt8.le_trans (by decide) digit.1
  have payload : Printable (payloadText record.payload) := by
    cases record.payload with
    | none => simp [payloadText, nullText, Printable]
    | some map =>
      refine printable_objectText ?_
      intro m member
      obtain ⟨pair, -, rfl⟩ := List.mem_map.mp member
      exact printable_quote _
  obtain ⟨-, rfl⟩ := Record.marshal_eq written
  refine printable_objectText ?_
  simp only [Record.members, List.map_cons, List.map_nil, List.forall_mem_cons]
  exact ⟨number, printable_quote _, printable_quote _, payload, printable_quote _,
    printable_quote _, by rintro m ⟨⟩⟩

theorem Record.isLine_of_marshal (written : record.marshal = some line) : IsLine line := by
  refine ⟨fun newline => ?_, ?_⟩
  · exact absurd (Record.printable_of_marshal written 10 newline) (by decide)
  · obtain ⟨-, rfl⟩ := Record.marshal_eq written
    simp [objectText, List.getLast?_cons]

/-- The line of an entry, without its end. -/
def Record.encoded (record : Record) : GoString := record.marshal.getD []

theorem Record.Fits.marshal [Sha256] {n : Nat} (fits : record.Fits n) :
    record.marshal = some record.encoded := by
  obtain ⟨encoded, hashed, -⟩ := Option.map_eq_some_iff.mp fits.2
  obtain ⟨encodable, -⟩ := Record.marshal_eq hashed
  have encodable : record.at_.Encodable := encodable
  rw [Record.encoded, Record.marshal_of_encodable encodable, Option.getD_some]

section Written

variable [Sha256] [TimeParser]

theorem Record.unmarshal_encoded_iff {n : Nat} (fits : record.Fits n) :
    Record.unmarshal record.encoded = some record ↔ record.Clean :=
  ⟨Record.clean_of_unmarshal, fun clean => Record.unmarshal_marshal clean fits.marshal⟩

/-- Entries that are written behind a file are read back exactly if all of them can be read. -/
theorem read_written {old new : List Record} (terminated : Terminated file)
    (read : readJournal (some file) = .ok old)
    (chained : Chained (HashChain.head Record.hash journalGenesisHash old) old.length new) :
    readJournal (some (file ++ joinLines (new.map Record.encoded))) = .ok (old ++ new) ↔
      ∀ entry ∈ new, entry.Clean ∧ entry.encoded.length < maxTokenSize := by
  obtain ⟨short, decoded, linked⟩ := readJournal_eq_ok.mp read
  have chain : Chained journalGenesisHash 0 (old ++ new) :=
    HashChain.linked_append.mpr ⟨linked, (Nat.zero_add old.length).symm ▸ chained⟩
  have fits {entry : Record} (member : entry ∈ new) := HashChain.Linked.fits_of_mem chained member
  have lines : ∀ line ∈ new.map Record.encoded, IsLine line := by
    intro line member
    obtain ⟨entry, among, rfl⟩ := List.mem_map.mp member
    obtain ⟨n, fit⟩ := fits among
    exact Record.isLine_of_marshal fit.marshal
  obtain ⟨lengths, same⟩ := scanLines_joinLines lines
  rw [readJournal_eq_ok, scanLines_append short terminated]
  constructor
  · rintro ⟨fitting, all, -⟩
    have small := lengths.mp fitting
    rw [same small] at all
    have rest := List.forall₂_drop_append _ _ _ all
    rw [List.drop_left' decoded.length_eq, List.forall₂_map_left_iff, List.forall₂_same] at rest
    intro entry member
    obtain ⟨n, fit⟩ := fits member
    exact ⟨(Record.unmarshal_encoded_iff fit).mp (rest entry member),
      small _ (List.mem_map_of_mem member)⟩
  · intro good
    have small : ∀ line ∈ new.map Record.encoded, line.length < maxTokenSize := by
      intro line member
      obtain ⟨entry, among, rfl⟩ := List.mem_map.mp member
      exact (good entry among).2
    refine ⟨lengths.mpr small, ?_, chain⟩
    rw [same small]
    refine List.rel_append decoded (List.forall₂_map_left_iff.mpr (List.forall₂_same.mpr ?_))
    intro entry member
    obtain ⟨n, fit⟩ := fits member
    exact (Record.unmarshal_encoded_iff fit).mpr (good entry member).1

end Written

/-! ## Appending -/

/-- An open journal. -/
structure JournalFile where
  sequence : Nat
  lastHash : GoString
  file : GoString
  deriving DecidableEq

/-- The arguments of `Append`. -/
structure AppendCall where
  type : GoString
  at_ : Stamp
  payload : Option StringMap
  deriving DecidableEq

/-- What may go wrong with the file: a write stops after some bytes, or the sync fails. -/
inductive Fault where
  | none
  | write (written : Nat)
  | sync
  deriving DecidableEq

inductive AppendError where
  | hash
  | encode
  | write
  | sync
  deriving DecidableEq

/-- The entry of a call at its place in the chain; its time is in UTC. -/
def AppendCall.entry (call : AppendCall) (sequence : Nat) (prevHash hash : GoString) : Record :=
  { sequence, at_ := { instant := call.at_.instant }, type := call.type, payload := call.payload
    prevHash, hash }

section Append

variable [Sha256]

/-- `Append`: the journal afterwards, and what is returned. -/
def JournalFile.append (journal : JournalFile) (fault : Fault) (call : AppendCall) :
    JournalFile × Except AppendError Record :=
  let entry := call.entry ((journal.sequence + 1) % 2 ^ 64) journal.lastHash []
  match entry.entryHash with
  | .none => (journal, .error .hash)
  | some hash =>
    let entry := { entry with hash }
    match entry.marshal with
    | .none => (journal, .error .encode)
    | some encoded =>
      let line := encoded ++ [10]
      match fault with
      | .write written =>
        ({ journal with file := journal.file ++ line.take written }, .error .write)
      | .sync => ({ journal with file := journal.file ++ line }, .error .sync)
      | .none =>
        ({ sequence := entry.sequence, lastHash := hash, file := journal.file ++ line },
          .ok entry)

/-- `OpenJournal`. -/
def JournalFile.open_ [TimeParser] (file : Option GoString) :
    Except ReadError (JournalFile × List Record) := do
  let entries ← readJournal file
  match entries.getLast? with
  | some last =>
    pure ({ sequence := last.sequence, lastHash := last.hash, file := file.getD [] }, entries)
  | .none =>
    pure ({ sequence := 0, lastHash := journalGenesisHash, file := file.getD [] }, entries)

end Append

end Torium.Faucet
