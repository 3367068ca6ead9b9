/-
Meters that are brought up to date lazily.

A meter hands out permits over time.  Nothing happens to it while nobody uses it: every operation
first *settles* its state, that is, catches up with the time that has passed since the last one,
and then looks at what is there.  Three operations are offered at every instant: an *attempt* to
take a permit, a *report* of the permits that are left, and an *estimate* of the wait for the next
one.

A meter is lawful if catching up in two steps is catching up in one, a permit taken is one permit
less, and the estimate is zero exactly where a permit is left and never reaches beyond the first
one.  What an operation other than a successful attempt does to a lawful meter cannot be observed
later, and whoever waits as long as the estimate says, again and again, does not miss a permit.

Main definitions:

* `LazyMeter.Meter` — settling a state, and its room, wait and next state once it is settled;
* `LazyMeter.Meter.attempt`, `LazyMeter.Meter.report`, `LazyMeter.Meter.estimate` — the operations;
* `LazyMeter.Meter.Lawful` — the laws, on the states that are valid at an instant;
* `LazyMeter.Meter.Agree` — two states that cannot be told apart any more;
* `LazyMeter.Meter.arrival` — the instant reached after waiting as estimated a number of times;
* `LazyMeter.Meter.Punctual` — so many waits suffice for a permit;
* `LazyMeter.Meter.Diminishing` — a permit that has been taken is gone.

Main results:

* `LazyMeter.Meter.Lawful.agree_settle` — **settling a state cannot be observed later**;
* `LazyMeter.Meter.Lawful.outcomes_attempt` — **the report counts the attempts that succeed**;
* `LazyMeter.Meter.Lawful.avail_lt_of_lt_arrival` — **no permit becomes available before the end of
  the waits**.
-/

import Mathlib.Algebra.Order.Group.Defs
import Mathlib.Data.List.Basic
import Mathlib.Order.Bounds.Basic
import Mathlib.Tactic.Linarith

set_option relaxedAutoImplicit false
set_option autoImplicit false

namespace LazyMeter

universe u v

/-- What `n` calls in a row return, when each leaves the state in which the next one is made. -/
def outcomes {S : Type u} {β : Type v} (call : S → β × S) : ℕ → S → List β
  | 0, _ => []
  | n + 1, s => (call s).1 :: outcomes call n (call s).2

/-- A meter: how its states are brought up to date, and what can then be read off them. -/
structure Meter (S : Type u) (T : Type v) where
  /-- The state brought up to date. -/
  settle : S → T → S
  /-- The permits that a settled state has left. -/
  room : S → T → ℤ
  /-- The wait that a settled state estimates. -/
  wait : S → T → T
  /-- A settled state after one permit has been taken from it. -/
  take : S → T → S

namespace Meter

variable {S : Type u} {T : Type v} (m : Meter S T)

/-- The permits that are left at an instant. -/
def avail (s : S) (now : T) : ℤ := m.room (m.settle s now) now

/-- The wait that is estimated at an instant. -/
def delay (s : S) (now : T) : T := m.wait (m.settle s now) now

/-- An attempt to take a permit. -/
def attempt (s : S) (now : T) : Bool × S :=
  if 1 ≤ m.avail s now then (true, m.take (m.settle s now) now) else (false, m.settle s now)

/-- A report of the permits that are left. -/
def report (s : S) (now : T) : ℤ × S := (m.avail s now, m.settle s now)

/-- An estimate of the wait for the next permit. -/
def estimate (s : S) (now : T) : T × S := (m.delay s now, m.settle s now)

variable {m}

theorem attempt_of_le {s : S} {now : T} (h : 1 ≤ m.avail s now) :
    m.attempt s now = (true, m.take (m.settle s now) now) :=
  if_pos h

theorem attempt_of_lt {s : S} {now : T} (h : m.avail s now < 1) :
    m.attempt s now = (false, m.settle s now) :=
  if_neg (not_le.2 h)

/-- An attempt succeeds exactly where a permit is left. -/
theorem attempt_fst {s : S} {now : T} : (m.attempt s now).1 = true ↔ 1 ≤ m.avail s now := by
  rw [attempt]
  split
  · next h => exact iff_of_true rfl h
  · next h => exact iff_of_false Bool.false_ne_true h

/-- An attempt is refused exactly where no permit is left. -/
theorem attempt_fst_eq_false {s : S} {now : T} :
    (m.attempt s now).1 = false ↔ m.avail s now < 1 := by
  rw [← Bool.not_eq_true, attempt_fst, not_le]

/-- A refused attempt only settles the state. -/
theorem attempt_snd_of_refused {s : S} {now : T} (h : (m.attempt s now).1 = false) :
    (m.attempt s now).2 = m.settle s now := by
  rw [attempt_of_lt (attempt_fst_eq_false.1 h)]

/-- What can be done with a settled state decides what can be done with the state. -/
theorem attempt_congr {s s' : S} {now : T} (h : m.settle s now = m.settle s' now) :
    m.attempt s now = m.attempt s' now := by
  rw [attempt, attempt, avail, avail, h]

/-! ### Lawful meters -/

variable [AddCommGroup T] [LinearOrder T]

variable (m) in
/-- The laws of a meter.  `Valid s t` says that the state `s` may occur when the meter was last used
at the instant `t`; such a state is settled at this instant. -/
structure Lawful (Valid : S → T → Prop) : Prop where
  /-- Settling keeps a state valid. -/
  settle_valid : ∀ {s t now}, Valid s t → t ≤ now → Valid (m.settle s now) now
  /-- A valid state is settled. -/
  settle_self : ∀ {s now}, Valid s now → m.settle s now = s
  /-- Settling twice is settling once. -/
  settle_settle : ∀ {s t now later}, Valid s t → t ≤ now → now ≤ later →
    m.settle (m.settle s now) later = m.settle s later
  /-- There is never less than no permit. -/
  room_nonneg : ∀ {s now}, Valid s now → 0 ≤ m.room s now
  /-- Taking a permit that is left keeps a state valid. -/
  take_valid : ∀ {s now}, Valid s now → 1 ≤ m.room s now → Valid (m.take s now) now
  /-- Taking a permit leaves one less. -/
  room_take : ∀ {s now}, Valid s now → 1 ≤ m.room s now →
    m.room (m.take s now) now = m.room s now - 1
  /-- A wait is not negative. -/
  wait_nonneg : ∀ {s now}, Valid s now → 0 ≤ m.wait s now
  /-- There is nothing to wait for exactly where a permit is left. -/
  wait_eq_zero : ∀ {s now}, Valid s now → (m.wait s now = 0 ↔ 1 ≤ m.room s now)
  /-- No permit becomes available during the wait. -/
  early : ∀ {s now x}, Valid s now → now ≤ x → x < now + m.wait s now → m.avail s x < 1

namespace Lawful

variable {Valid : S → T → Prop} {s : S} {t now later : T}

/-- There is never less than no permit. -/
theorem avail_nonneg (law : m.Lawful Valid) (hs : Valid s t) (ht : t ≤ now) : 0 ≤ m.avail s now :=
  law.room_nonneg (law.settle_valid hs ht)

/-- An attempt keeps a state valid. -/
theorem attempt_valid (law : m.Lawful Valid) (hs : Valid s t) (ht : t ≤ now) :
    Valid (m.attempt s now).2 now := by
  have hsettled := law.settle_valid hs ht
  rw [attempt]
  split
  · next h => exact law.take_valid hsettled h
  · exact hsettled

/-- A successful attempt leaves one permit less. -/
theorem avail_attempt (law : m.Lawful Valid) (hs : Valid s t) (ht : t ≤ now)
    (h : 1 ≤ m.avail s now) : m.avail (m.attempt s now).2 now = m.avail s now - 1 := by
  have hsettled := law.settle_valid hs ht
  rw [attempt_of_le h, avail, law.settle_self (law.take_valid hsettled h)]
  exact law.room_take hsettled h

/-- Settling does not change how many permits are left later. -/
theorem avail_settle (law : m.Lawful Valid) (hs : Valid s t) (ht : t ≤ now) (hnow : now ≤ later) :
    m.avail (m.settle s now) later = m.avail s later := by
  rw [avail, avail, law.settle_settle hs ht hnow]

/-- Settling does not change what is estimated later. -/
theorem delay_settle (law : m.Lawful Valid) (hs : Valid s t) (ht : t ≤ now) (hnow : now ≤ later) :
    m.delay (m.settle s now) later = m.delay s later := by
  rw [delay, delay, law.settle_settle hs ht hnow]

end Lawful

/-! ### Observing is free -/

variable {Valid : S → T → Prop} {s s' : S} {t now : T}

variable (m) in
/-- Two states cannot be told apart from the instant `t` on. -/
def Agree (t : T) (s s' : S) : Prop := ∀ now, t ≤ now → m.settle s now = m.settle s' now

omit [AddCommGroup T] in
theorem Agree.refl (t : T) (s : S) : m.Agree t s s := fun _ _ => rfl

omit [AddCommGroup T] in
theorem Agree.mono (h : m.Agree t s s') (ht : t ≤ now) : m.Agree now s s' :=
  fun later hnow => h later (ht.trans hnow)

/-- **Settling cannot be observed**: a settled state agrees with whatever the state agreed with. -/
theorem Lawful.agree_settle (law : m.Lawful Valid) (hs : Valid s t) (ht : t ≤ now)
    (h : m.Agree t s s') : m.Agree now (m.settle s now) s' := by
  intro later hnow
  rw [law.settle_settle hs ht hnow]
  exact h later (ht.trans hnow)

namespace Lawful

/-! ### The report counts the attempts that succeed -/

/-- **The report counts the attempts that succeed**: where `n` permits are left, the next `n`
attempts at this instant succeed, and the one after them is refused. -/
theorem outcomes_attempt (law : m.Lawful Valid) (n : ℕ) :
    ∀ {s t}, Valid s t → t ≤ now → m.avail s now = n →
      outcomes (fun s => m.attempt s now) (n + 1) s = List.replicate n true ++ [false] := by
  induction n with
  | zero =>
      intro s t _ _ hn
      have hlt : m.avail s now < 1 := by omega
      rw [outcomes, attempt_fst_eq_false.2 hlt]
      rfl
  | succ n ih =>
      intro s t hs ht hn
      have hle : 1 ≤ m.avail s now := by omega
      have htake : m.avail (m.attempt s now).2 now = n := by
        rw [law.avail_attempt hs ht hle, hn]
        omega
      rw [outcomes, attempt_fst.2 hle, ih (law.attempt_valid hs ht) le_rfl htake]
      rfl

/-! ### Waiting as estimated -/

/-- A wait is not negative. -/
theorem delay_nonneg (law : m.Lawful Valid) (hs : Valid s t) (ht : t ≤ now) : 0 ≤ m.delay s now :=
  law.wait_nonneg (law.settle_valid hs ht)

/-- There is nothing to wait for exactly where a permit is left. -/
theorem delay_eq_zero (law : m.Lawful Valid) (hs : Valid s t) (ht : t ≤ now) :
    m.delay s now = 0 ↔ 1 ≤ m.avail s now :=
  law.wait_eq_zero (law.settle_valid hs ht)

end Lawful

variable (m) in
/-- The instant that is reached from `now` after waiting as long as estimated, `n` times. -/
def arrival (s : S) : ℕ → T → T
  | 0, now => now
  | n + 1, now => arrival s n (now + m.delay s now)

variable (m) in
/-- Waiting `n` times leads to a permit, from every valid state. -/
def Punctual (Valid : S → T → Prop) (n : ℕ) : Prop :=
  ∀ s now, Valid s now → 1 ≤ m.avail s (m.arrival s n now)

namespace Lawful

variable {Valid : S → T → Prop} {s : S} {t now : T}

variable [IsOrderedAddMonoid T]

theorem le_add_delay (law : m.Lawful Valid) (hs : Valid s t) (ht : t ≤ now) :
    now ≤ now + m.delay s now :=
  le_add_of_nonneg_right (law.delay_nonneg hs ht)

/-- Waiting does not go back in time. -/
theorem le_arrival (law : m.Lawful Valid) (hs : Valid s t) (n : ℕ) :
    ∀ {now}, t ≤ now → now ≤ m.arrival s n now := by
  induction n with
  | zero => exact fun _ => le_rfl
  | succ n ih =>
      intro now ht
      have hle := law.le_add_delay hs ht
      exact hle.trans (ih (ht.trans hle))

/-- **No permit becomes available before the arrival.** -/
theorem avail_lt_of_lt_arrival (law : m.Lawful Valid) (hs : Valid s t) (n : ℕ) :
    ∀ {now x}, t ≤ now → now ≤ x → x < m.arrival s n now → m.avail s x < 1 := by
  induction n with
  | zero => exact fun _ hle hlt => absurd hle (not_le.2 hlt)
  | succ n ih =>
      intro now x ht hle hlt
      rcases lt_or_ge x (now + m.delay s now) with hx | hx
      · rw [← law.avail_settle hs ht hle]
        exact law.early (law.settle_valid hs ht) hle hx
      · exact ih (ht.trans (law.le_add_delay hs ht)) hx hlt

/-- Settling does not change when one arrives. -/
theorem arrival_settle (law : m.Lawful Valid) (hs : Valid s t) (ht : t ≤ now) (n : ℕ) :
    ∀ {later}, now ≤ later → m.arrival (m.settle s now) n later = m.arrival s n later := by
  induction n with
  | zero => exact fun _ => rfl
  | succ n ih =>
      intro later hnow
      rw [arrival, arrival, law.delay_settle hs ht hnow]
      exact ih (hnow.trans (law.le_add_delay hs (ht.trans hnow)))

/-- Waiting leads to a permit from every instant at which the state may be used next. -/
theorem avail_arrival (law : m.Lawful Valid) {n : ℕ} (hpunctual : m.Punctual Valid n)
    (hs : Valid s t) (ht : t ≤ now) : 1 ≤ m.avail s (m.arrival s n now) := by
  have h := hpunctual _ _ (law.settle_valid hs ht)
  rwa [law.arrival_settle hs ht n le_rfl,
    law.avail_settle hs ht (law.le_arrival hs n ht)] at h

/-- One more wait does no harm. -/
theorem punctual_succ (law : m.Lawful Valid) {n : ℕ} (h : m.Punctual Valid n) :
    m.Punctual Valid (n + 1) := by
  intro s now hs
  have harrival : 1 ≤ m.avail s (m.arrival s n (now + m.delay s now)) :=
    law.avail_arrival h hs (law.le_add_delay hs le_rfl)
  exact harrival

end Lawful

/-! ### Permits that are gone -/

variable (m) in
/-- A permit that has been taken is not there later either. -/
def Diminishing (Valid : S → T → Prop) : Prop :=
  ∀ s now later, Valid s now → 1 ≤ m.room s now → now ≤ later →
    m.avail (m.take s now) later ≤ m.avail s later

/-- An attempt leaves no more permits than there were. -/
theorem Lawful.avail_attempt_le {Valid : S → T → Prop} {s : S} {t now later : T}
    (law : m.Lawful Valid) (hdim : m.Diminishing Valid) (hs : Valid s t) (ht : t ≤ now)
    (hnow : now ≤ later) : m.avail (m.attempt s now).2 later ≤ m.avail s later := by
  have hsettled := law.settle_valid hs ht
  rw [← law.avail_settle hs ht hnow, attempt]
  split
  · next h => exact hdim _ _ _ hsettled h hnow
  · exact le_rfl

end Meter

end LazyMeter
