import Mathlib.Logic.Basic

/-!
# The policy for transactions of the EVM

The decorator admits one message with a transaction of an enabled type whose encoding is not
longer than the limit of the protocol.
-/

namespace Torium.App

inductive TxType where
  | legacy
  | accessList
  | dynamicFee
  | blob
  | setCode
  deriving DecidableEq

/-- A transaction, by its type and the length of its encoding. -/
structure EthereumTx where
  type : TxType
  size : BitVec 64

inductive AnteError where
  | invalidRequest (text : String)
  | txTooLarge (text : String)
  | unpack (text : String)
  deriving DecidableEq

/-- The limit of the local profile on the length of a transaction. -/
def maxEVMTransactionBytes : Nat := 128 * 1024

/-- The admission of a transaction, given what its messages unpack to. -/
def anteHandle {α : Type} (maxEncodedBytes : Nat) (messages : List (Except AnteError EthereumTx))
    (next : Except AnteError α) : Except AnteError α :=
  match messages with
  | [message] => do
      let ethereumTx ← message
      match ethereumTx.type with
      | .blob => throw (.invalidRequest
          "EIP-4844 blob transactions are disabled by Torium protocol v1")
      | .setCode => throw (.invalidRequest
          "EIP-7702 set-code transactions are disabled by Torium protocol v1")
      | _ =>
        if maxEncodedBytes < ethereumTx.size.toNat then
          throw (.txTooLarge ("encoded EVM transaction is " ++ toString ethereumTx.size.toNat ++
            " bytes; Torium protocol limit is " ++ toString maxEncodedBytes))
        else next
  | messages => throw (.invalidRequest
      ("expected one EVM message, got " ++ toString messages.length))

/-- A transaction with dynamic fees is admitted when its length is within the limit. -/
theorem anteHandle_dynamicFee {α : Type} {maxEncodedBytes : Nat} {tx : EthereumTx}
    {next : Except AnteError α} (dynamic : tx.type = .dynamicFee)
    (fits : tx.size.toNat ≤ maxEncodedBytes) :
    anteHandle maxEncodedBytes [.ok tx] next = next := by
  obtain ⟨type, size⟩ := tx
  subst dynamic
  change (if maxEncodedBytes < size.toNat then _ else next) = next
  rw [if_neg (Nat.not_lt.mpr fits)]

end Torium.App
