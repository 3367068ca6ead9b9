/-
The protocol of the cache serializers, and the exceptions they raise.

`CacheSerializer` is a protocol: any object with the methods `dumps` and `loads` can encode the
values of a cache for an external backend.  What a backend distinguishes about an exception is
whether it is a `ValueError`; the built-in exceptions that occur are told apart by their classes.

* `Serializers.encode`, `Serializers.decode` — strings as UTF-8;
* `Serializers.Error` — an exception: its class and its message;
* `Serializers.CacheSerializer` — the two methods;
* `Serializers.CacheSerializer.ValueErrorOnly` — the contract of `loads`.
-/

import Mathlib.Init

set_option relaxedAutoImplicit false
set_option autoImplicit false

namespace Serializers

universe u

/-! ### Bytes and strings -/

abbrev Bytes := List UInt8

/-- `s.encode()`. -/
def encode (s : String) : Bytes := s.toUTF8.data.toList

/-- `raw.decode()`; `none` is a `UnicodeDecodeError`. -/
def decode (raw : Bytes) : Option String := String.fromUTF8? ⟨raw.toArray⟩

theorem decode_encode (s : String) : decode (encode s) = some s :=
  dif_pos s.isValidUTF8

theorem encode_append (s t : String) : encode (s ++ t) = encode s ++ encode t := by
  simp [encode, String.toByteArray_append, ByteArray.data_append]

/-- A byte below 128 in the encoding of a character is the character. -/
theorem toNat_eq_of_mem_utf8EncodeChar {c : Char} {b : UInt8} (h : b ∈ String.utf8EncodeChar c)
    (hb : b.toNat < 128) : c.toNat = b.toNat := by
  simp only [String.utf8EncodeChar] at h
  split at h
  · next hv =>
    have hbyte : b.toNat = c.val.toNat % 256 := by
      rw [List.mem_singleton.1 h, UInt8.toNat_ofNat']
    rw [hbyte, Nat.mod_eq_of_lt (by omega)]
    rfl
  · -- every byte of a longer encoding is at least 128
    exfalso
    split at h
    · simp only [List.mem_cons, List.not_mem_nil, or_false] at h
      rcases h with rfl | rfl <;> simp only [UInt8.toNat_ofNat'] at hb <;> omega
    · split at h
      · simp only [List.mem_cons, List.not_mem_nil, or_false] at h
        rcases h with rfl | rfl | rfl <;> simp only [UInt8.toNat_ofNat'] at hb <;> omega
      · simp only [List.mem_cons, List.not_mem_nil, or_false] at h
        rcases h with rfl | rfl | rfl | rfl <;> simp only [UInt8.toNat_ofNat'] at hb <;> omega

/-- A byte below 128 in the encoding of a string is one of its characters. -/
theorem exists_mem_of_mem_encode {s : String} {b : UInt8} (h : b ∈ encode s) (hb : b.toNat < 128) :
    ∃ c ∈ s.toList, c.toNat = b.toNat := by
  have hutf8 : s.toUTF8 = s.toList.utf8Encode := String.utf8Encode_toList.symm
  rw [encode, hutf8, List.utf8Encode, List.data_toByteArray, List.toList_toArray,
    List.mem_flatMap] at h
  obtain ⟨c, hc, hmem⟩ := h
  exact ⟨c, hc, toNat_eq_of_mem_utf8EncodeChar hmem hb⟩

/-! ### Exceptions -/

/-- The classes of the exceptions that occur. -/
inductive ErrorClass
  | valueError | unicodeDecodeError | jsonDecodeError | typeError | runtimeError
  | recursionError | unpicklingError | eofError
  | other (name : String)
  deriving DecidableEq, Repr

/-- `issubclass(cls, ValueError)`. -/
def ErrorClass.isValueError : ErrorClass → Bool
  | .valueError | .unicodeDecodeError | .jsonDecodeError => true
  | _ => false

/-- A piece of a message; `repr` is an interpolated `{s!r}`. -/
inductive Piece
  | text (s : String)
  | repr (s : String)
  deriving DecidableEq, Repr

/-- An exception. -/
structure Error where
  cls : ErrorClass
  message : List Piece
  deriving DecidableEq, Repr

/-! ### Serializers -/

/-- The methods of a serializer for the values `V`. -/
structure CacheSerializer (V : Type u) where
  dumps : V → Except Error Bytes
  loads : Bytes → Except Error V

/-- On this content `loads` returns or raises a `ValueError`. -/
def CacheSerializer.ValueErrorOnly {V : Type u} (serializer : CacheSerializer V) (raw : Bytes) :
    Prop :=
  ∀ e, serializer.loads raw = .error e → e.cls.isValueError = true

end Serializers
