/-
`HmacPickleSerializer`: pickles with a signature.

A pickle is stored behind its HMAC-SHA256 signature, and what does not carry the signature of its
payload is refused before it is unpickled.  `hmac` and `pickle` are parameters.

Main definitions:

* `Serializers.Signing`, `Serializers.PickleModule` — the two modules;
* `Serializers.sign`, `Serializers.verifyAndLoad` — signing, and loading what is signed;
* `Serializers.HmacPickleSerializer.serializer` — the serializer.

Main results:

* `Serializers.verifyAndLoad_sign` — what is signed is unpickled;
* `Serializers.verifyAndLoad_of_not_signed` — what is not signed is refused.
-/

import Pysilience.Serializer.CacheSerializer
import Mathlib.Data.Nat.Notation
import Mathlib.Logic.Basic

set_option relaxedAutoImplicit false
set_option autoImplicit false

namespace Serializers

universe u

/-- `hmac.new(secret, data, hashlib.sha256).digest()`, which always has 32 bytes. -/
structure Signing where
  hmac : Bytes → Bytes → Bytes
  length_hmac : ∀ secret data, (hmac secret data).length = 32

/-- The module `pickle`, for values of which `dumps` and `loads` may raise any exception. -/
structure PickleModule (V : Type u) where
  dumps : V → Except Error Bytes
  loads : Bytes → Except Error V

variable {V : Type u}

/-- `_HMAC_DIGEST_SIZE`. -/
def hmacDigestSize : ℕ := 32

/-- `_sign`. -/
def sign (signing : Signing) (data secret : Bytes) : Bytes := signing.hmac secret data ++ data

/-- `_verify_and_load`. -/
def verifyAndLoad (signing : Signing) (pickle : PickleModule V) (raw secret : Bytes) :
    Except Error V :=
  if raw.length < hmacDigestSize then
    .error ⟨.valueError, [.text ("Cache entry is too short to contain a signature " ++
      "(possible corruption or unsigned legacy data)")]⟩
  else if raw.take hmacDigestSize ≠ signing.hmac secret (raw.drop hmacDigestSize) then
    .error ⟨.valueError,
      [.text "Cache entry signature mismatch — possible tampering or secret rotation"]⟩
  else
    match pickle.loads (raw.drop hmacDigestSize) with
    | .ok value => .ok value
    | .error e => if e.cls = .unpicklingError then .error ⟨.valueError, e.message⟩ else .error e

namespace HmacPickleSerializer

/-- `HmacPickleSerializer(secret=secret)`, for a secret that is not empty. -/
def serializer (signing : Signing) (pickle : PickleModule V) (secret : Bytes) :
    CacheSerializer V where
  dumps value := (pickle.dumps value).map fun data => sign signing data secret
  loads raw := verifyAndLoad signing pickle raw secret

end HmacPickleSerializer

/-! ### What is signed, and what is not -/

/-- Content is signed when its first 32 bytes are the signature of the rest. -/
theorem eq_sign_iff {signing : Signing} {raw payload secret : Bytes} :
    raw = sign signing payload secret ↔ hmacDigestSize ≤ raw.length ∧
      raw.drop hmacDigestSize = payload ∧
        raw.take hmacDigestSize = signing.hmac secret payload := by
  have hlen : (signing.hmac secret payload).length = hmacDigestSize :=
    signing.length_hmac secret payload
  constructor
  · rintro rfl
    refine ⟨?_, ?_, ?_⟩
    · rw [sign, List.length_append, hlen]
      exact Nat.le_add_right _ _
    · rw [sign, ← hlen, List.drop_left]
    · rw [sign, ← hlen, List.take_left]
  · rintro ⟨-, hdrop, htake⟩
    rw [sign, ← htake, ← hdrop, List.take_append_drop]

/-- What is signed is unpickled. -/
theorem verifyAndLoad_sign (signing : Signing) (pickle : PickleModule V) (payload secret : Bytes) :
    verifyAndLoad signing pickle (sign signing payload secret) secret =
      match pickle.loads payload with
      | .ok value => .ok value
      | .error e =>
          if e.cls = .unpicklingError then .error ⟨.valueError, e.message⟩ else .error e := by
  obtain ⟨hlen, hdrop, htake⟩ := eq_sign_iff.1 (Eq.refl (sign signing payload secret))
  rw [verifyAndLoad, if_neg (Nat.not_lt.2 hlen), hdrop, if_neg (not_not.2 htake)]

/-- What is not signed is refused with a `ValueError`. -/
theorem verifyAndLoad_of_not_signed {signing : Signing} {raw secret : Bytes}
    (pickle : PickleModule V) (h : ∀ payload, raw ≠ sign signing payload secret) :
    ∃ message, verifyAndLoad signing pickle raw secret = .error ⟨.valueError, message⟩ := by
  unfold verifyAndLoad
  split
  · exact ⟨_, rfl⟩
  · next hlen =>
    split
    · exact ⟨_, rfl⟩
    · next hsig => exact absurd (eq_sign_iff.2 ⟨Nat.not_lt.1 hlen, rfl, not_not.1 hsig⟩) (h _)

/-- `loads` raises nothing but `ValueError`s exactly when the content is not signed, or the pickle
raises nothing but `UnpicklingError`s and `ValueError`s. -/
theorem hmac_valueErrorOnly_iff (signing : Signing) (pickle : PickleModule V)
    (secret raw : Bytes) :
    (HmacPickleSerializer.serializer signing pickle secret).ValueErrorOnly raw ↔
      ∀ payload e, raw = sign signing payload secret → pickle.loads payload = .error e →
        e.cls = .unpicklingError ∨ e.cls.isValueError = true := by
  by_cases hsigned : ∃ payload, raw = sign signing payload secret
  · obtain ⟨payload, rfl⟩ := hsigned
    have hload := verifyAndLoad_sign signing pickle payload secret
    constructor
    · intro h payload' e hpayload he
      obtain ⟨-, hdrop, -⟩ := eq_sign_iff.1 (Eq.refl (sign signing payload secret))
      obtain ⟨-, hdrop', -⟩ := eq_sign_iff.1 hpayload
      rw [← hdrop', hdrop] at he
      by_cases hcls : e.cls = .unpicklingError
      · exact .inl hcls
      · refine .inr (h e (hload.trans ?_))
        simp only [he, if_neg hcls]
    · intro h e he
      change verifyAndLoad signing pickle (sign signing payload secret) secret = .error e at he
      rw [hload] at he
      cases hpickle : pickle.loads payload with
      | ok value =>
          rw [hpickle] at he
          cases he
      | error e' =>
          simp only [hpickle] at he
          split at he
          · obtain rfl := Except.error.inj he
            rfl
          · next hcls =>
            obtain rfl := Except.error.inj he
            exact (h payload e' rfl hpickle).resolve_left hcls
  · obtain ⟨message, hrefused⟩ := verifyAndLoad_of_not_signed pickle (not_exists.1 hsigned)
    constructor
    · intro _ payload _ hpayload
      exact absurd ⟨payload, hpayload⟩ hsigned
    · intro _ e he
      obtain rfl := Except.error.inj (hrefused.symm.trans he)
      rfl

end Serializers
