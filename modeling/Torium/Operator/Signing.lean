import Torium.Lib.Transition
import Torium.Lib.Watermark
import Torium.Operator.SignerGuard

/-!
# Signing and restoring

A validator key has an active state. It signs at later positions only, or the stored sign
bytes again, and a restore replaces the active state by a candidate that the guard has
accepted against it. The accepted candidates count as signed where they say so, since they
come from another copy of the same key.

The guard accepts a candidate only if its mark is not before the active one, so the mark of
the key never steps back.
-/

namespace Torium.Operator

open Evm Generator Watermark

abbrev Position : Type := ℤ ×ₗ ℤ ×ₗ ℤ

def SignerState.position (state : SignerState) : Position :=
  toLex ((Decimal.value state.height : Int), toLex (state.round, state.step))

/-- The position of a state, and the sign bytes that are stored for it. -/
def SignerState.mark (state : SignerState) : Mark Position Text :=
  { position := state.position, message := state.signbytes }

theorem comparePosition_eq (left right : SignerState) : comparePosition left right =
    if left.position < right.position then -1
    else if right.position < left.position then 1 else 0 := by
  simp only [comparePosition, compareValues, SignerState.position, Prod.Lex.toLex_lt_toLex]
  split_ifs <;> omega

theorem precedes_of_comparePosition {current candidate : SignerState}
    (ahead : ¬ comparePosition candidate current < 0)
    (same : comparePosition candidate current = 0 → candidate.signbytes = current.signbytes) :
    current.mark.Precedes candidate.mark := by
  rw [comparePosition_eq] at ahead same
  obtain later | equal | earlier := lt_trichotomy current.position candidate.position
  · exact .inl later
  · rw [equal] at same
    exact .inr ⟨equal, (same (by simp)).symm⟩
  · rw [if_pos earlier] at ahead
    exact absurd (by decide) ahead

variable {lib : NodeLibrary} {disk : Disk} {options : RestoreOptions}

/-- What an accepted candidate meets. -/
theorem validateSignerRestore_precedes {report : RestoreReport}
    (accepted : validateSignerRestore lib disk options = .ok report) :
    ∃ current candidate, readSignerHome lib disk options.currentHome "current" = .ok current ∧
      readSignerHome lib disk options.candidateHome "candidate" = .ok candidate ∧
      current.state.mark.Precedes candidate.state.mark := by
  unfold validateSignerRestore at accepted
  split at accepted
  · simp only [bind_eq_ok, revertIf_eq_ok, throwIf] at accepted
    obtain ⟨-, -, current, read, candidate, read', -, -, -, -, -, -, -, ahead, -, same, -⟩ :=
      accepted
    refine ⟨current, candidate, read, read', precedes_of_comparePosition ahead fun equal => ?_⟩
    by_contra different
    exact same ⟨equal, .inl different⟩
  · simp [bind_eq_ok] at accepted

/-! ## Runs -/

/-- A key: its active state, and everything that was signed with it. -/
structure Signer where
  active : SignerState
  signed : List (Position × Text)

inductive SignerLabel where
  /-- The key signs, and the state is stored. -/
  | sign (state : SignerState)
  /-- The guard accepts a candidate, which becomes the active state. -/
  | restore (disk : Disk) (options : RestoreOptions)

def Signer.store (signer : Signer) (state : SignerState) : Signer :=
  { active := state, signed := signer.signed ++ state.mark.entry }

def Signer.step (lib : NodeLibrary) (signer : Signer) : SignerLabel → Option Signer
  | .sign state =>
    if state.signbytes ≠ none ∧ (signer.active.position < state.position ∨
        signer.active.position = state.position ∧ signer.active.signbytes = state.signbytes) then
      some (signer.store state)
    else none
  | .restore disk options =>
    match validateSignerRestore lib disk options,
      readSignerHome lib disk options.currentHome "current",
      readSignerHome lib disk options.candidateHome "candidate" with
    | .ok _, .ok current, .ok candidate =>
      if current.state = signer.active then some (signer.store candidate.state) else none
    | _, _, _ => none

/-- A key about which only its active state is known. -/
def Signer.Initial (signer : Signer) : Prop := signer.signed = signer.active.mark.entry

/-- Every step stores a mark that is not before the active one. -/
theorem Signer.step_cases {signer signer' : Signer} {label : SignerLabel}
    (taken : signer.step lib label = some signer') :
    ∃ state, signer.active.mark.Precedes state.mark ∧ signer' = signer.store state := by
  cases label with
  | sign state =>
    simp only [step] at taken
    split_ifs at taken with allowed
    exact ⟨state, allowed.2, (Option.some.inj taken).symm⟩
  | restore disk options =>
    simp only [step] at taken
    split at taken
    next report current candidate accepted read read' =>
        split_ifs at taken with active
        obtain ⟨current', candidate', here, there, precedes⟩ :=
          validateSignerRestore_precedes accepted
        cases read.symm.trans here
        cases read'.symm.trans there
        exact ⟨candidate.state, active ▸ precedes, (Option.some.inj taken).symm⟩
    next => cases taken

theorem Signer.covers_step {signer signer' : Signer} {label : SignerLabel}
    (covers : signer.active.mark.Covers signer.signed)
    (taken : signer.step lib label = some signer') :
    signer'.active.mark.Covers signer'.signed := by
  obtain ⟨state, precedes, rfl⟩ := step_cases taken
  exact covers.advance precedes

/-- In every run of signings and accepted restores, no two different sign bytes are signed at
one position, and the active position never decreases. -/
theorem no_double_signing {start middle final : Signer} {before after : List SignerLabel}
    (initial : start.Initial)
    (run : Transition.Run (Signer.step lib) Transition.Free before start middle)
    (rest : Transition.Run (Signer.step lib) Transition.Free after middle final) :
    (∀ first ∈ final.signed, ∀ second ∈ final.signed,
      first.1 = second.1 → first.2 = second.2) ∧
    middle.active.position ≤ final.active.position := by
  constructor
  · have covers : final.active.mark.Covers final.signed := (run.trans rest).invariant
      (I := fun signer => signer.active.mark.Covers signer.signed)
      (initial ▸ start.active.mark.covers_entry)
      fun covers _ taken => Signer.covers_step covers taken
    exact covers.unique
  · refine rest.invariant (I := fun signer => middle.active.position ≤ signer.active.position)
      le_rfl fun behind _ taken => ?_
    obtain ⟨state, precedes, rfl⟩ := Signer.step_cases taken
    exact behind.trans precedes.le

namespace Demo

def base64Digits : Text :=
  "ABCDEFGHIJKLMNOPQRSTUVWXYZabcdefghijklmnopqrstuvwxyz0123456789+/".toList

def sextet (c : Char) : Nat := base64Digits.idxOf c

def fromBase64 : Text → Utf8.Bytes
  | [a, b, '=', '='] => [UInt8.ofNat (4 * sextet a + sextet b / 16)]
  | [a, b, c, '='] => [UInt8.ofNat (4 * sextet a + sextet b / 16),
      UInt8.ofNat (16 * sextet b + sextet c / 4)]
  | a :: b :: c :: d :: rest => UInt8.ofNat (4 * sextet a + sextet b / 16) ::
      UInt8.ofNat (16 * sextet b + sextet c / 4) :: UInt8.ofNat (64 * sextet c + sextet d) ::
      fromBase64 rest
  | _ => []

def base64Digit (n : Nat) : Char := base64Digits.getD (n % 64) '='

def toBase64 : Utf8.Bytes → Text
  | [] => []
  | [a] => [base64Digit (a.toNat / 4), base64Digit (16 * a.toNat), '=', '=']
  | [a, b] => [base64Digit (a.toNat / 4), base64Digit (16 * a.toNat + b.toNat / 16),
      base64Digit (4 * b.toNat), '=']
  | a :: b :: c :: rest => base64Digit (a.toNat / 4) ::
      base64Digit (16 * a.toNat + b.toNat / 16) :: base64Digit (4 * b.toNat + c.toNat / 64) ::
      base64Digit c.toNat :: toBase64 rest

def publicKey : Text := "A6EHv/POEL4dcN0Y50vAmWfk1jCbpQ1fHdyGZBJVMbg=".toList

def privateKey : Text :=
  ("AAECAwQFBgcICQoLDA0ODxAREhMUFRYXGBkaGxwdHh8DoQe/884Qvh1w3RjnS8CZZ+TWMJulDV8d3IZkElUxuA" ++
    "==").toList

def address : Text := "56475AA75463474C0285DF5DBF2BCAB73DA65135".toList

def signature : Text :=
  ("XYLrM37J5Ny3DLsPNGI7vQebnWzIq7Z+8fCaKJfq5P4ik/PdIIBTeVXZj8vjsHVf4mM5yRwKN2yI2KLMj4NPBg" ++
    "==").toList

/-- What the cryptographic functions return for one key and one message. -/
def library : NodeLibrary where
  fromBase64 := fromBase64
  toBase64 := toBase64
  sha256 bytes := if bytes = fromBase64 publicKey then fromHex address else []
  ed25519Public seed := if seed = (List.range 32).map UInt8.ofNat then fromBase64 publicKey else []
  ed25519Verify message key signed := message = fromHex "0801110500".toList ∧
    key = fromBase64 publicKey ∧ signed = fromBase64 signature

def keyFile : Value :=
  .object [("address".toList, .string address),
    ("pub_key".toList, .object [("type".toList, .string "tendermint/PubKeyEd25519".toList),
      ("value".toList, .string publicKey)]),
    ("priv_key".toList, .object [("type".toList, .string "tendermint/PrivKeyEd25519".toList),
      ("value".toList, .string privateKey)])]

def emptyFile : Value :=
  .object [("height".toList, .string "0".toList), ("round".toList, .number (some 0)),
    ("step".toList, .number (some 0))]

def signedFile : Value :=
  .object [("height".toList, .string "5".toList), ("round".toList, .number (some 0)),
    ("step".toList, .number (some 1)), ("signature".toList, .string signature),
    ("signbytes".toList, .string "0801110500".toList)]

/-- Two homes with the same key, of which only the second one has signed. -/
def homes : Disk where
  resolve := id
  lstat path :=
    if path.length < 12 then .ok { isDirectory := true, mode := 0o40700 }
    else .ok { isFile := true, mode := 0o100600, size := 200 }
  realpath path := .ok path
  parse path :=
    if path = join "/old".toList stateRelativePath then .ok emptyFile
    else if path = join "/new".toList stateRelativePath then .ok signedFile
    else .ok keyFile

def request : RestoreOptions where
  currentHome := .string "/old".toList
  candidateHome := .string "/new".toList
  validatorStopped := .bool true
  trustedMaximumHeight := .string "7".toList

def unsigned : SignerState := { height := "0".toList, round := 0, step := 0, signature := none
                                signbytes := none }

def next : SignerState := { unsigned with height := "6".toList, step := 1
                                          signbytes := some "0802".toList }

end Demo

theorem no_double_signing_demo :
    ∃ final, Transition.Run (Signer.step Demo.library) Transition.Free
        [.restore Demo.homes Demo.request, .sign Demo.next] ⟨Demo.unsigned, []⟩ final ∧
      final.signed.map Prod.snd = ["0801110500".toList, "0802".toList] ∧
      (∀ first ∈ final.signed, ∀ second ∈ final.signed,
        first.1 = second.1 → first.2 = second.2) ∧
      Demo.unsigned.position ≤ final.active.position := by
  obtain ⟨final, run, signed⟩ := Transition.run_of_execute_any
    (show (Transition.execute (Signer.step Demo.library)
      [.restore Demo.homes Demo.request, .sign Demo.next] ⟨Demo.unsigned, []⟩).any
      (fun final => final.signed.map Prod.snd = ["0801110500".toList, "0802".toList])
      by decide +kernel)
  have safe := no_double_signing (show Signer.Initial ⟨Demo.unsigned, []⟩ from rfl) (.refl _) run
  exact ⟨final, run, of_decide_eq_true signed, safe⟩

end Torium.Operator
