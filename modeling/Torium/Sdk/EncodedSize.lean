import Torium.App.Ante
import Torium.Sdk.Wallet

/-!
# The size of a preflighted transaction

The preflight measures the transaction with a signature of the greatest length. No signature
makes the encoding longer, so the chain admits the length of every transaction that passed.
-/

namespace Torium.Sdk

open Evm Generator Concurrent

theorem length_bytesToHex (bytes : List Byte) :
    (bytesToHex bytes).length = 2 + 2 * bytes.length := by
  have digits : (bytes.flatMap fun byte => Hexadecimal.numeral 2 byte.toNat).length =
      2 * bytes.length := by
    induction bytes with
    | nil => rfl
    | cons byte bytes ih =>
      rw [List.flatMap_cons, List.length_append, ih, Hexadecimal.length_numeral, List.length_cons]
      omega
  rw [bytesToHex, List.length_cons, List.length_cons, digits]
  omega

/-- The preflight counts the bytes of the transaction with the longest signature. -/
theorem getMaximumSignedTransactionBytes_eq (tx : Eip1559) :
    getMaximumSignedTransactionBytes tx =
      (tx.encode ⟨true, BitVec.allOnes 256, BitVec.allOnes 256⟩).length := by
  have halves (n : Nat) : (2 + 2 * n - 2) / 2 = n := by omega
  rw [getMaximumSignedTransactionBytes, serializeTransaction, length_bytesToHex, halves]
  rfl

theorem length_encode_longest : (Rlp.encode (.nat (BitVec.allOnes 256).toNat)).length = 33 := by
  decide +kernel

theorem length_encode_parity (parity : Bool) : (Rlp.encode (.nat parity.toNat)).length = 1 := by
  cases parity <;> decide +kernel

/-- No signature is encoded in more bytes than the one that the preflight measures with. -/
theorem length_signature_le (signature : Signature) :
    (Rlp.encodeAll signature.items).length ≤
      (Rlp.encodeAll (Signature.items ⟨true, BitVec.allOnes 256, BitVec.allOnes 256⟩)).length := by
  have r := Rlp.length_encode_nat_le signature.r.isLt
  have s := Rlp.length_encode_nat_le signature.s.isLt
  simp only [Signature.items, Rlp.encodeAll, List.length_append, List.length_nil,
    length_encode_parity, length_encode_longest]
  omega

theorem length_encode_le (tx : Eip1559) (signature : Signature) :
    (tx.encode signature).length ≤ getMaximumSignedTransactionBytes tx := by
  rw [getMaximumSignedTransactionBytes_eq, Eip1559.encode, Eip1559.encode, List.length_cons,
    List.length_cons]
  refine Nat.succ_le_succ (Rlp.length_encode_list_mono ?_)
  rw [Rlp.encodeAll_append, Rlp.encodeAll_append, List.length_append, List.length_append]
  exact Nat.add_le_add_left (length_signature_le signature) _

/-- The transaction on the chain: the length of its encoding counts its type. -/
def Eip1559.onChain (tx : Eip1559) (signature : Signature) : App.EthereumTx where
  type := .dynamicFee
  size := BitVec.ofNat 64 ((Rlp.encode (.list (tx.items ++ signature.items))).length + 1)

namespace Demo

def walletChain : ClientChain Unit := ⟨1414484556, (), ()⟩

/-- A transfer from an account without letters in its address to itself. -/
def transfer : ToriumTransactionRequest where
  account := some (.address ('0' :: 'x' :: List.replicate 40 '1'))
  recipient := some (some ('0' :: 'x' :: List.replicate 40 '1'))
  value := some 5

/-- A client of the chain that answers every query. -/
def respond : (command : WalletCommand) → Wallet.Response command
  | .aborted => false
  | .accountAddress => []
  | .getChainId => .ok (some 1414484556)
  | .call _ => .ok ()
  | .query _ _ => .ok ⟨21000, 2000000000, 1, 10 ^ 18, some 7⟩
  | .authorize _ => .ok true
  | .sendTransaction _ => .ok zeroHash

end Demo

end Torium.Sdk
