import Labyrithm.Go.Hex
import Labyrithm.Go.Hmac

/-!
# Signatures

The agent signs the body of a request with its token: `sign_payload` of
`competitor-desktop/src-tauri/src/agent/transport.rs` builds the block of the key, the two pads and the two
passes of the hash by hand.  `requireAgentSignature` of `backend/internal/api/agent.go` has `VerifyHMAC` of
`backend/internal/crypto/crypto.go` check the signature, which rests on the library of Go.  The hash is any
one with the sizes of SHA-256.

* `signPayload_eq` — what is built by hand is the one that the library has.
* `verifyHMAC_iff` — the signatures that are accepted.

**`signatures_verify`** — both, and that a signed request comes to its handler.
-/

namespace Labyrithm

namespace Agent

open Go

/-! ## The agent -/

/-- A hash that is fed piece by piece. -/
structure Hasher where
  data : List UInt8
  deriving DecidableEq, Repr

namespace Hasher

/-- `Sha256::new`. -/
def new : Hasher := ⟨[]⟩

def update (h : Hasher) (data : List UInt8) : Hasher := ⟨h.data ++ data⟩

def finalize (hash : List UInt8 → Vector UInt8 32) (h : Hasher) : Vector UInt8 32 := hash h.data

end Hasher

/-- `block[..src.len()].copy_from_slice(src)`. -/
def copyFromSlice (block : Vector UInt8 64) (src : List UInt8) : Vector UInt8 64 :=
  Vector.ofFn fun i => if h : i < src.length then src[i] else block[i]

/-- The block of the key. -/
def keyBlock (hash : List UInt8 → Vector UInt8 32) (key : List UInt8) : Vector UInt8 64 :=
  let block := Vector.replicate 64 0
  if key.length > 64 then
    let hasher := Hasher.new.update key
    copyFromSlice block (hasher.finalize hash).toList
  else copyFromSlice block key

/-- The loop over the pads. -/
def pads (block : Vector UInt8 64) : Vector UInt8 64 × Vector UInt8 64 :=
  (List.finRange 64).foldl
    (fun p (i : Fin 64) => (p.1.set i (p.1[i] ^^^ block[i]), p.2.set i (p.2[i] ^^^ block[i])))
    (Vector.replicate 64 0x36, Vector.replicate 64 0x5c)

/-- `sign_payload`, of the bytes of the token. -/
def signPayload (hash : List UInt8 → Vector UInt8 32) (token body : List UInt8) : List UInt8 :=
  let (ipad, opad) := pads (keyBlock hash token)
  let inner := (Hasher.new.update ipad.toList).update body
  let innerHash := inner.finalize hash
  let outer := (Hasher.new.update opad.toList).update innerHash.toList
  hexEncode (outer.finalize hash).toList

/-! ## The server -/

/-- `ComputeHMAC`. -/
def computeHMAC (hash : List UInt8 → Vector UInt8 32) (key data : List UInt8) : List UInt8 :=
  hexEncode (hmac hash 64 key data).toList

/-- `VerifyHMAC`. -/
def verifyHMAC (hash : List UInt8 → Vector UInt8 32) (key data sigHex : List UInt8) : Bool :=
  match hexDecode (trimSpaceBytes sigHex) with
  | .error _ => false
  | .ok sig => (hmac hash 64 key data).toList = sig

/-- What `requireAgentSignature` does with a request. -/
inductive SignatureCheck
  | next
  | abort (status : ℕ) (error : String) (code : Option String)
  deriving DecidableEq, Repr

/-- `requireAgentSignature`: `body` is `none` if it cannot be read. -/
def requireAgentSignature (hash : List UInt8 → Vector UInt8 32) (bypass : Bool)
    (rawToken sig : List UInt8) (body : Option (List UInt8)) : SignatureCheck :=
  if bypass then .next
  else if sig.isEmpty then .abort 401 "agent payload signature required" (some "SIGNATURE_MISSING")
  else
    match body with
    | none => .abort 400 "failed to read request body" none
    | some bodyBytes =>
        if !verifyHMAC hash rawToken bodyBytes sig then
          .abort 401 "invalid payload signature" (some "TAMPERED_PAYLOAD")
        else .next

/-! ## What the agent builds -/

section Signing

variable {hash : List UInt8 → Vector UInt8 32} {block : Vector UInt8 64} {key : List UInt8}

/-- A short text in a block of zeros. -/
lemma toList_copyFromSlice (h : key.length ≤ 64) :
    (copyFromSlice (Vector.replicate 64 0) key).toList = key ++ List.replicate (64 - key.length) 0 := by
  refine List.ext_getElem (by simp; omega) fun i hi _ => ?_
  by_cases hlt : i < key.length
  · simp [copyFromSlice, hlt]
  · simp [copyFromSlice, hlt, List.getElem_append_right (Nat.le_of_not_lt hlt)]

/-- The block of the key, for a key that is longer than a block as well. -/
lemma toList_keyBlock : (keyBlock hash key).toList = hmacKey hash 64 key := by
  rw [keyBlock, hmacKey]
  by_cases hlong : key.length > 64
  · rw [if_pos hlong, if_pos hlong]
    exact toList_copyFromSlice (by simp)
  · rw [if_neg hlong, if_neg hlong]
    exact toList_copyFromSlice (Nat.le_of_not_lt hlong)

/-- The two loops. -/
lemma pads_eq : pads block =
    (Vector.ofFn fun i : Fin 64 => 0x36 ^^^ block[i], Vector.ofFn fun i : Fin 64 => 0x5c ^^^ block[i]) := by
  have hsplit (is : List (Fin 64)) (v w : Vector UInt8 64) :
      is.foldl (fun p (i : Fin 64) => (p.1.set i (p.1[i] ^^^ block[i]), p.2.set i (p.2[i] ^^^ block[i]))) (v, w)
        = (is.foldl (fun v (i : Fin 64) => v.set i (v[i] ^^^ block[i])) v,
          is.foldl (fun w (i : Fin 64) => w.set i (w[i] ^^^ block[i])) w) := by
    induction is generalizing v w with
    | nil => rfl
    | cons i is ih => exact ih _ _
  have hloop (v : Vector UInt8 64) :=
    foldl_finRange_set (fun (i : Fin 64) (a : UInt8) => a ^^^ block[i]) v
  rw [pads, hsplit, hloop, hloop]
  simp

/-- A pad over the whole block. -/
lemma toList_pad (a : UInt8) :
    (Vector.ofFn fun i : Fin 64 => a ^^^ block[i]).toList = block.toList.map (· ^^^ a) := by
  refine List.ext_getElem (by simp) fun i hi _ => ?_
  simp [UInt8.xor_comm]

/-- **What is built by hand is the library's.** -/
theorem signPayload_eq (hash : List UInt8 → Vector UInt8 32) (token body : List UInt8) :
    signPayload hash token body = computeHMAC hash token body := by
  rw [signPayload, pads_eq]
  simp only [Hasher.new, Hasher.update, Hasher.finalize, toList_pad, toList_keyBlock, List.nil_append]
  rfl

end Signing

/-! ## What the server accepts -/

/-- **The signatures that are accepted**, but for the space around them. -/
theorem verifyHMAC_iff (hash : List UInt8 → Vector UInt8 32) (key data sigHex : List UInt8) :
    verifyHMAC hash key data sigHex = true ↔
      (trimSpaceBytes sigHex).map lowerByte = computeHMAC hash key data := by
  rw [computeHMAC, ← hexDecode_eq_ok, verifyHMAC]
  cases hexDecode (trimSpaceBytes sigHex) with
  | error err => simp
  | ok sig => simp [eq_comm]

/-- The server's own text is accepted. -/
lemma verifyHMAC_computeHMAC (hash : List UInt8 → Vector UInt8 32) (key data : List UInt8) :
    verifyHMAC hash key data (computeHMAC hash key data) = true := by
  rw [verifyHMAC_iff, computeHMAC, trimSpaceBytes_hexEncode, map_lowerByte_hexEncode]

/-- **Agent signatures verify**: the agent signs with the hex text of the HMAC, the server accepts exactly
this text in either letter case, and lets what the agent signed through to its handler. -/
theorem signatures_verify (hash : List UInt8 → Vector UInt8 32) :
    (∀ token body, signPayload hash token body = hexEncode (hmac hash 64 token body).toList)
      ∧ (∀ token body sigHex, verifyHMAC hash token body sigHex = true ↔
        (trimSpaceBytes sigHex).map lowerByte = hexEncode (hmac hash 64 token body).toList)
      ∧ ∀ bypass token body,
        requireAgentSignature hash bypass token (signPayload hash token body) (some body) = .next := by
  refine ⟨signPayload_eq hash, verifyHMAC_iff hash, fun bypass token body => ?_⟩
  have hverified := verifyHMAC_computeHMAC hash token body
  have hlen : (computeHMAC hash token body).length = 64 := by
    rw [computeHMAC, length_hexEncode, Vector.length_toList]
  have hnonempty : (computeHMAC hash token body).isEmpty = false := by
    rw [List.isEmpty_eq_false_iff, ← List.length_pos_iff]
    omega
  rw [signPayload_eq, requireAgentSignature, hnonempty, hverified]
  cases bypass <;> rfl

end Agent

end Labyrithm
