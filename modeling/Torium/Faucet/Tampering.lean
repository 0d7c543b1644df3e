import Torium.Faucet.RoundTrip

/-!
# Tampering with the journal

The last hash of a journal that can be read stands for all of its entries. Two journals with the
same last hash have the same entries, unless two of the texts that were hashed while they were
read are different and have the same SHA-256 value. This holds for whatever a file contains: what
is read from a line is determined by the text that is hashed for it.
-/

namespace Torium.Faucet

open Utf8 Json

theorem hexString_injective {first second : BitVec 256}
    (same : hexString first = hexString second) : first = second :=
  BitVec.eq_of_toNat_eq (hexDigits_injective (by have := first.isLt; omega)
    (by have := second.isLt; omega) same)

theorem length_token (line : GoString) (rest : Scan) :
    (Scan.token line rest).lines.length ≤ rest.lines.length + 1 := by
  unfold Scan.token
  split_ifs
  · exact Nat.zero_le _
  · exact Nat.le_refl _

/-- A file does not have more lines than bytes. -/
theorem length_scanFrom (line file : GoString) :
    (scanFrom line file).lines.length ≤ file.length + if line = [] then 0 else 1 := by
  induction file generalizing line with
  | nil =>
    rw [scanFrom]
    split_ifs
    · exact Nat.le_refl _
    · exact length_token line ⟨[], false⟩
  | cons b file ih =>
    rw [scanFrom, List.length_cons]
    by_cases newline : b = 10
    · rw [if_pos newline]
      exact Nat.le_trans (length_token line _)
        (Nat.le_trans (Nat.succ_le_succ (ih [])) (Nat.le_add_right _ _))
    · rw [if_neg newline]
      have within := ih (line ++ [b])
      rw [if_neg (by simp)] at within
      exact Nat.le_trans within (Nat.le_add_right _ _)

theorem Decoded.clean [TimeParser] {lines : List GoString} {entries : List Record}
    (decoded : Decoded lines entries) : ∀ entry ∈ entries, entry.Clean := by
  induction decoded with
  | nil => rintro entry ⟨⟩
  | cons read _ ih => exact List.forall_mem_cons.mpr ⟨Record.clean_of_unmarshal read, ih⟩

section Chain

variable [Sha256]

variable [TimeParser]

/-- Entries that were read are determined by what is hashed for them. -/
theorem eq_of_hashInput {n m : Nat} {first second : Record} (clean : first.Clean)
    (clean' : second.Clean) (fits : first.Fits n) (fits' : second.Fits m)
    (same : first.hashInput = second.hashInput) : first = second := by
  have blank {record : Record} (clean : record.Clean) : { record with hash := [] }.Clean :=
    { clean with hash := .nil }
  have written {n : Nat} {record : Record} (fits : record.Fits n) :
      { record with hash := [] }.marshal = some record.hashInput := by
    obtain ⟨encoded, marshalled, -⟩ := Option.map_eq_some_iff.mp fits.2
    rw [Record.hashInput, Record.encoded, marshalled, Option.getD_some]
  have blanks := Record.marshal_injective (blank clean) (blank clean') (written fits)
    (same ▸ written fits')
  have hashes : first.hash = second.hash := by rw [fits.hash, fits'.hash, same]
  cases first
  cases second
  simp only [Record.mk.injEq] at blanks hashes ⊢
  exact ⟨blanks.1, blanks.2.1, blanks.2.2.1, blanks.2.2.2.1, blanks.2.2.2.2.1, hashes⟩

/-- What is known of the entries of a file that can be read. -/
theorem facts_of_readJournal {file : GoString} {entries : List Record}
    (read : readJournal (some file) = .ok entries) :
    entries.length ≤ file.length ∧ (∀ entry ∈ entries, entry.Clean) ∧
      Chained journalGenesisHash 0 entries := by
  obtain ⟨-, decoded, chained⟩ := readJournal_eq_ok.mp read
  refine ⟨?_, decoded.clean, chained⟩
  rw [← decoded.length_eq]
  exact length_scanFrom [] file

/-- Two journals with the same last hash have the same entries, or there is a collision. -/
theorem journal_tamper_evident {file file' : GoString} {entries entries' : List Record}
    {hash : GoString} (size : file.length < 2 ^ 63) (size' : file'.length < 2 ^ 63)
    (read : readJournal (some file) = .ok entries)
    (read' : readJournal (some file') = .ok entries')
    (last : entries.getLast?.map Record.hash = some hash)
    (last' : entries'.getLast?.map Record.hash = some hash) :
    entries = entries' ∨ ∃ first ∈ entries, ∃ second ∈ entries',
      first.hashInput ≠ second.hashInput ∧
        Sha256.sum first.hashInput = Sha256.sum second.hashInput := by
  obtain ⟨count, clean, chained⟩ := facts_of_readJournal read
  obtain ⟨count', clean', chained'⟩ := facts_of_readJournal read'
  have fits {entry : Record} (member : entry ∈ entries) :=
    HashChain.Linked.fits_of_mem chained member
  have fits' {entry : Record} (member : entry ∈ entries') :=
    HashChain.Linked.fits_of_mem chained' member
  have determines : ∀ first ∈ entries, ∀ second ∈ entries',
      first.hashInput = second.hashInput → first = second := by
    intro first member second member' same
    obtain ⟨n, here⟩ := fits member
    obtain ⟨m, there⟩ := fits' member'
    exact eq_of_hashInput (clean first member) (clean' second member') here there same
  obtain rfl | ⟨front, a, rfl⟩ := List.eq_nil_or_concat' entries
  · cases last
  obtain rfl | ⟨front', b, rfl⟩ := List.eq_nil_or_concat' entries'
  · cases last'
  rw [List.getLast?_concat] at last last'
  have heads : a.hash = b.hash := Option.some.inj (last.trans last'.symm)
  by_cases same : a.hashInput = b.hashInput
  · -- The last entries are equal, so the files have the same number of lines.
    have equal := determines a (by simp) b (by simp) same
    have lengths : (front ++ [a]).length = (front' ++ [b]).length := by
      have place := (HashChain.linked_concat.mp chained).2.2.1
      have place' := (HashChain.linked_concat.mp chained').2.2.1
      rw [equal, place'] at place
      simp only [List.length_append, List.length_singleton] at count count' ⊢
      omega
    obtain whole | ⟨first, member, second, member', different, collide⟩ :=
      HashChain.eq_or_collision Record.hashInput (fun s => hexString (Sha256.sum s))
        (fun entry among => among.elim
          (fun member => (fits member).elim fun _ fit => fit.hash)
          (fun member => (fits' member).elim fun _ fit => fit.hash))
        determines chained chained' lengths
        (by rw [HashChain.head_concat, HashChain.head_concat, heads])
    · exact .inl whole
    · exact .inr ⟨first, member, second, member', different, hexString_injective collide⟩
  · obtain ⟨n, here⟩ := fits (show a ∈ front ++ [a] by simp)
    obtain ⟨m, there⟩ := fits' (show b ∈ front' ++ [b] by simp)
    refine .inr ⟨a, by simp, b, by simp, same, hexString_injective ?_⟩
    rw [← here.hash, ← there.hash, heads]

end Chain

namespace Demo

def pausedEntry : Record :=
  { sequence := 1
    at_ := { instant := 63900000000120 * 1000000 }
    type := text "service-paused"
    payload := some (.ofList [(text "reason", text "maintenance")])
    prevHash := journalGenesisHash
    hash := hexString (sha256.sum (text "\x7b\"sequence\":1")) }

/-- The entry after it, which carries its hash. -/
def resumedEntry : Record :=
  { sequence := 2
    at_ := { instant := 63900000060120 * 1000000 }
    type := text "service-resumed"
    payload := some .empty
    prevHash := pausedEntry.hash
    hash := hexString (sha256.sum (text "\x7b\"sequence\":2")) }

/-- The lines of both entries as they are written, and with a space in front of the first. -/
def linkedFile : GoString := joinLines [pausedEntry.encoded, resumedEntry.encoded]

def spacedFile : GoString := joinLines [32 :: pausedEntry.encoded, resumedEntry.encoded]

end Demo

/-- Different files of two linked entries, with the same last hash. -/
theorem journal_tamper_evident_demo :
    letI := Demo.sha256
    letI := Demo.timeParser
    Demo.linkedFile ≠ Demo.spacedFile ∧ ∃ entries entries',
      readJournal (some Demo.linkedFile) = .ok entries ∧
      readJournal (some Demo.spacedFile) = .ok entries' ∧
      entries.map Record.prevHash = [journalGenesisHash, Demo.pausedEntry.hash] ∧
      entries.getLast?.map Record.hash = some Demo.resumedEntry.hash ∧
      (entries = entries' ∨ ∃ first ∈ entries, ∃ second ∈ entries',
        first.hashInput ≠ second.hashInput ∧
          Sha256.sum first.hashInput = Sha256.sum second.hashInput) := by
  let := Demo.sha256
  let := Demo.timeParser
  have ok {file : GoString} {entries : List Record}
      (read : (readJournal (some file)).toOption = some entries) :
      readJournal (some file) = .ok entries := by
    cases result : readJournal (some file) with
    | error => rw [result] at read; cases read
    | ok found => rw [result] at read; cases read; rfl
  have read : readJournal (some Demo.linkedFile) = .ok [Demo.pausedEntry, Demo.resumedEntry] :=
    ok (by decide +kernel)
  have spaced : readJournal (some Demo.spacedFile) = .ok [Demo.pausedEntry, Demo.resumedEntry] :=
    ok (by decide +kernel)
  refine ⟨by decide +kernel, _, _, read, spaced, rfl, rfl, ?_⟩
  exact journal_tamper_evident (show Demo.linkedFile.length < 2 ^ 63 by decide +kernel)
    (show Demo.spacedFile.length < 2 ^ 63 by decide +kernel) read spaced rfl rfl

end Torium.Faucet
