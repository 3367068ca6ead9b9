/-
What `HmacPickleSerializer` gives to `pickle.loads`.

Unpickling runs code that the pickle names, so it matters which payloads are unpickled, and not only
what `loads` returns.  Here `_verify_and_load` is a program that keeps the payloads `pickle.loads`
was called with; what it returns or raises is what `Serializers.verifyAndLoad` says.

Main definitions:

* `Serializers.HmacPickleSerializer.init` — the secret a serializer is made with;
* `Serializers.Unpickling.verifyAndLoad` — loading, with the payloads that are unpickled.

Main results:

* `Serializers.Unpickling.exec_verifyAndLoad_fst` — the program returns what `loads` returns;
* `Serializers.Unpickling.exec_verifyAndLoad` — all it can do;
* `Serializers.Unpickling.unpickled_iff_signed` — **only signed payloads are unpickled**, and what
  was dumped is loaded.
-/

import Pysilience.Lib.Programs
import Pysilience.Serializer.Hmac

set_option relaxedAutoImplicit false
set_option autoImplicit false

namespace Serializers

open Programs

variable {V : Type}

namespace HmacPickleSerializer

/-- `__init__`, for the argument `secret` and the value of `PYSILIENCE_CACHE_SECRET`, which is `""`
where it is not set. -/
def init (secret : Option (Bytes ⊕ String)) (environ : String) : Except Error Bytes :=
  -- an empty secret is as good as none
  let given := (secret.map (Sum.elim id encode)).filter (· ≠ [])
  match given.or ((some (encode environ)).filter (· ≠ [])) with
  | none =>
      .error ⟨.valueError, [.text ("HmacPickleSerializer requires a signing secret to prevent "
        ++ "unsafe deserialization. Pass secret=b'...' or set the "
        ++ "PYSILIENCE_CACHE_SECRET environment variable. "
        ++ "Generate a suitable value with:\n"
        ++ "    python -c \"import secrets; print(secrets.token_hex(32))\"")]⟩
  | some kept => .ok kept

/-- A serializer never has an empty secret. -/
theorem ne_nil_of_init {secret : Option (Bytes ⊕ String)} {environ : String} {kept : Bytes}
    (h : init secret environ = .ok kept) : kept ≠ [] := by
  simp only [init] at h
  split at h
  · cases h
  · next hkept =>
    cases h
    rcases Option.or_eq_some_iff.1 hkept with hgiven | ⟨-, henviron⟩
    · exact of_decide_eq_true (Option.filter_eq_some_iff.1 hgiven).2
    · exact of_decide_eq_true (Option.filter_eq_some_iff.1 henviron).2

end HmacPickleSerializer

namespace Unpickling

/-! ### Loading, step by step -/

/-- `pickle.loads(payload)`. -/
def loads (pickle : PickleModule V) (payload : Bytes) : Program (List Bytes) Error V :=
  ofExec fun unpickled => (pickle.loads payload, unpickled ++ [payload])

/-- `_verify_and_load`. -/
def verifyAndLoad (signing : Signing) (pickle : PickleModule V) (raw secret : Bytes) :
    Program (List Bytes) Error V :=
  if raw.length < hmacDigestSize then
    throw ⟨.valueError, [.text ("Cache entry is too short to contain a signature " ++
      "(possible corruption or unsigned legacy data)")]⟩
  else
    let sig := raw.take hmacDigestSize
    let payload := raw.drop hmacDigestSize
    let expected := signing.hmac secret payload
    if sig ≠ expected then
      throw ⟨.valueError,
        [.text "Cache entry signature mismatch — possible tampering or secret rotation"]⟩
    else
      tryExcept (loads pickle payload) (fun e => e.cls = .unpicklingError)
        (fun e => throw ⟨.valueError, e.message⟩) pure

/-- A handler for `UnpicklingError`s around `pickle.loads`. -/
theorem exec_tryLoads (pickle : PickleModule V) (payload : Bytes) (unpickled : List Bytes) :
    exec (tryExcept (loads pickle payload) (fun e => e.cls = .unpicklingError)
        (fun e => throw ⟨.valueError, e.message⟩) pure : Program (List Bytes) Error V) unpickled =
      (match pickle.loads payload with
        | .ok value => .ok value
        | .error e =>
            if e.cls = .unpicklingError then .error ⟨.valueError, e.message⟩ else .error e,
        unpickled ++ [payload]) := by
  have hloads : exec (loads pickle payload) unpickled =
      (pickle.loads payload, unpickled ++ [payload]) := rfl
  cases hresult : pickle.loads payload with
  | ok value =>
      rw [hresult] at hloads
      rw [exec_tryExcept_ok hloads]
      rfl
  | error e =>
      rw [hresult] at hloads
      by_cases hcls : e.cls = .unpicklingError
      · rw [exec_tryExcept_caught hloads (decide_eq_true hcls)]
        simp only [if_pos hcls, exec_throw]
      · rw [exec_tryExcept_passed hloads (decide_eq_false hcls)]
        simp only [if_neg hcls]
        rfl

/-- What is signed is unpickled, once. -/
theorem exec_verifyAndLoad_sign (signing : Signing) (pickle : PickleModule V)
    (payload secret : Bytes) (unpickled : List Bytes) :
    exec (verifyAndLoad signing pickle (sign signing payload secret) secret) unpickled =
      (Serializers.verifyAndLoad signing pickle (sign signing payload secret) secret,
        unpickled ++ [payload]) := by
  obtain ⟨hlen, hdrop, htake⟩ := eq_sign_iff.1 (Eq.refl (sign signing payload secret))
  rw [verifyAndLoad, if_neg (Nat.not_lt.2 hlen), verifyAndLoad_sign]
  simp only [hdrop, htake, ne_eq, not_true_eq_false, if_false]
  exact exec_tryLoads pickle payload unpickled

/-- What is not signed is refused with a `ValueError`, and nothing is unpickled. -/
theorem exec_verifyAndLoad_of_not_signed {signing : Signing} {raw secret : Bytes}
    (pickle : PickleModule V) (h : ∀ payload, raw ≠ sign signing payload secret)
    (unpickled : List Bytes) :
    exec (verifyAndLoad signing pickle raw secret) unpickled =
      (Serializers.verifyAndLoad signing pickle raw secret, unpickled) := by
  unfold verifyAndLoad Serializers.verifyAndLoad
  split
  · rfl
  · next hlen =>
    have hsig : raw.take hmacDigestSize ≠ signing.hmac secret (raw.drop hmacDigestSize) :=
      fun hsig => h _ (eq_sign_iff.2 ⟨Nat.not_lt.1 hlen, rfl, hsig⟩)
    simp only [if_pos hsig, exec_throw]

/-- **All the program can do**: content is signed, and its payload is unpickled, or it is not. -/
theorem exec_verifyAndLoad (signing : Signing) (pickle : PickleModule V) (raw secret : Bytes)
    (unpickled : List Bytes) :
    (∃ payload, raw = sign signing payload secret ∧
      exec (verifyAndLoad signing pickle raw secret) unpickled =
        (Serializers.verifyAndLoad signing pickle raw secret, unpickled ++ [payload])) ∨
    ((∀ payload, raw ≠ sign signing payload secret) ∧
      exec (verifyAndLoad signing pickle raw secret) unpickled =
        (Serializers.verifyAndLoad signing pickle raw secret, unpickled)) := by
  by_cases hsigned : ∃ payload, raw = sign signing payload secret
  · obtain ⟨payload, rfl⟩ := hsigned
    exact .inl ⟨payload, rfl, exec_verifyAndLoad_sign signing pickle payload secret unpickled⟩
  · have hsigned := not_exists.1 hsigned
    exact .inr ⟨hsigned, exec_verifyAndLoad_of_not_signed pickle hsigned unpickled⟩

/-- The program returns and raises what `loads` does. -/
theorem exec_verifyAndLoad_fst (signing : Signing) (pickle : PickleModule V) (raw secret : Bytes)
    (unpickled : List Bytes) :
    (exec (verifyAndLoad signing pickle raw secret) unpickled).1 =
      (HmacPickleSerializer.serializer signing pickle secret).loads raw := by
  rcases exec_verifyAndLoad signing pickle raw secret unpickled with ⟨_, -, hexec⟩ | ⟨-, hexec⟩
  · rw [hexec]
    rfl
  · rw [hexec]
    rfl

/-! ### Only what is signed is unpickled -/

/-- The payload of signed content is the only one that is signed so. -/
theorem sign_injective {signing : Signing} {payload payload' secret : Bytes}
    (h : sign signing payload secret = sign signing payload' secret) : payload = payload' := by
  obtain ⟨-, hdrop, -⟩ := eq_sign_iff.1 h
  obtain ⟨-, hdrop', -⟩ := eq_sign_iff.1 (Eq.refl (sign signing payload secret))
  exact hdrop'.symm.trans hdrop

/-- **Only signed payloads are unpickled.**  The program returns and raises what `loads` does.  For
any bytes, it calls `pickle.loads` with a payload exactly when the bytes are the signature of the
payload and the payload, and then once; everything else is refused with a `ValueError`, and nothing
is unpickled.  And what was dumped is loaded. -/
theorem unpickled_iff_signed (signing : Signing) (pickle : PickleModule V)
    (hpickle : ∀ value data, pickle.dumps value = .ok data → pickle.loads data = .ok value)
    (secret : Bytes) :
    (∀ raw, (exec (verifyAndLoad signing pickle raw secret) []).1 =
      (HmacPickleSerializer.serializer signing pickle secret).loads raw) ∧
    (∀ raw payload, payload ∈ (exec (verifyAndLoad signing pickle raw secret) []).2 ↔
      raw = signing.hmac secret payload ++ payload) ∧
    (∀ raw, (exec (verifyAndLoad signing pickle raw secret) []).2.length ≤ 1) ∧
    (∀ raw, (∀ payload, raw ≠ signing.hmac secret payload ++ payload) → ∃ message,
      exec (verifyAndLoad signing pickle raw secret) [] = (.error ⟨.valueError, message⟩, [])) ∧
    ∀ value data, pickle.dumps value = .ok data → ∃ raw,
      (HmacPickleSerializer.serializer signing pickle secret).dumps value = .ok raw ∧
      (HmacPickleSerializer.serializer signing pickle secret).loads raw = .ok value := by
  refine ⟨fun raw => exec_verifyAndLoad_fst signing pickle raw secret [], fun raw payload => ?_,
    fun raw => ?_, fun raw hraw => ?_, fun value data hdata => ?_⟩
  · rcases exec_verifyAndLoad signing pickle raw secret [] with
      ⟨payload', rfl, hexec⟩ | ⟨hno, hexec⟩
    · rw [hexec, List.nil_append, List.mem_singleton]
      constructor
      · rintro rfl
        rfl
      · intro h
        have hsign : sign signing payload' secret = sign signing payload secret := h
        exact (sign_injective hsign).symm
    · rw [hexec]
      exact ⟨fun h => absurd h List.not_mem_nil, fun h => absurd h (hno payload)⟩
  · rcases exec_verifyAndLoad signing pickle raw secret [] with ⟨payload', -, hexec⟩ | ⟨-, hexec⟩
    · rw [hexec]
      exact Nat.le_refl 1
    · rw [hexec]
      exact Nat.zero_le 1
  · obtain ⟨message, hrefused⟩ := verifyAndLoad_of_not_signed pickle hraw
    exact ⟨message, by rw [exec_verifyAndLoad_of_not_signed pickle hraw, hrefused]⟩
  · have hdumps : (HmacPickleSerializer.serializer signing pickle secret).dumps value =
        .ok (sign signing data secret) := by
      simp only [HmacPickleSerializer.serializer, hdata, Except.map]
    refine ⟨sign signing data secret, hdumps, ?_⟩
    exact (verifyAndLoad_sign signing pickle data secret).trans (by rw [hpickle value data hdata])

/-- `None` under the secret `b"my-secret-key"`. -/
theorem unpickled_iff_signed_none :
    let data : Bytes := [128, 5, 78, 46]
    let digest : Bytes := [197, 253, 111, 172, 139, 253, 155, 161, 1, 252, 130, 45, 96, 185, 34, 7,
      193, 147, 7, 233, 168, 0, 39, 196, 11, 129, 19, 226, 174, 95, 21, 120]
    let secret : Bytes := [109, 121, 45, 115, 101, 99, 114, 101, 116, 45, 107, 101, 121]
    let signing : Signing :=
      ⟨fun secret' data' =>
          if secret' = secret ∧ data' = data then digest else List.replicate 32 0,
        fun secret' data' => by split <;> rfl⟩
    let pickle : PickleModule Unit :=
      ⟨fun _ => .ok data, fun raw => if raw = data then .ok () else .error ⟨.unpicklingError, []⟩⟩
    data ∈ (exec (verifyAndLoad signing pickle (digest ++ data) secret) []).2 ∧
      ∃ raw, (HmacPickleSerializer.serializer signing pickle secret).dumps () = .ok raw ∧
        (HmacPickleSerializer.serializer signing pickle secret).loads raw = .ok () := by
  intro data digest secret signing pickle
  have hpickle : ∀ value data', pickle.dumps value = .ok data' →
      pickle.loads data' = .ok value := by
    rintro ⟨⟩ data' hdata
    obtain rfl : data = data' := Except.ok.inj hdata
    rfl
  obtain ⟨-, hiff, -, -, hround⟩ := unpickled_iff_signed signing pickle hpickle secret
  exact ⟨(hiff _ data).2 rfl, hround () data rfl⟩

end Unpickling

end Serializers
