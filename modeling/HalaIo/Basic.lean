import Mathlib.Data.Finset.Basic

/-!
# The standard-library vocabulary of the runtime

The poller and the QUIC connection state are written against a handful of `std` types:
`std::task::Poll`, `std::io::Error`, `std::time::Duration` and `Instant`. This file fixes their
meaning once. A Rust panic on the paths we model (`Duration` overflow, a division by zero, a
failed `assert!`) is `none` in an `Option`, as the `Option` of a `checked_*` operation.

`Instant` is a reading of the monotonic clock, kept as the time elapsed since the clock's
origin; `elapsed` and `duration_since` saturate at zero, as `Instant::duration_since` does.
-/

namespace HalaIo

/-! ## `Poll` and `io::Error` -/

/-- `std::task::Poll`. -/
inductive Poll (α : Type) where
  | ready (val : α)
  | pending
deriving DecidableEq, Repr

/-- The values a `Poll` of a list hands over: none while it is `Pending`. -/
def Poll.values {α : Type} : Poll (List α) → List α
  | .ready v => v
  | .pending => []

/-- The `io::ErrorKind`s of the model: those the modelled code constructs, and the driver's error
classes, which reach the adapters as the driver's answers. -/
inductive IoErrorKind where
  | brokenPipe
  | invalidInput
  | notConnected
  | addrInUse
  | notFound
deriving DecidableEq, Repr

/-- An `io::Error` built by `io::Error::new(kind, message)`. -/
structure IoError where
  kind : IoErrorKind
  msg : String
deriving DecidableEq, Repr

/-! ## `Duration` -/

/-- `NANOS_PER_SEC`. -/
def nanosPerSec : Nat := 1000000000

/-- `std::time::Duration`: a `u64` count of seconds and the nanoseconds below one second. -/
structure Duration where
  secs : Nat
  nanos : Nat
  secs_lt : secs < 2 ^ 64
  nanos_lt : nanos < nanosPerSec
deriving DecidableEq

namespace Duration

/-- `Duration::as_nanos`, a `u128`. -/
def asNanos (d : Duration) : Nat := d.secs * nanosPerSec + d.nanos

theorem asNanos_lt (d : Duration) : d.asNanos < 2 ^ 64 * nanosPerSec := by
  have := d.secs_lt; have := d.nanos_lt
  unfold asNanos nanosPerSec at *; omega

theorem ext_asNanos {a b : Duration} (h : a.asNanos = b.asNanos) : a = b := by
  obtain ⟨s, n, hs, hn⟩ := a
  obtain ⟨s', n', hs', hn'⟩ := b
  have : n < 1000000000 := hn; have : n' < 1000000000 := hn'
  simp only [asNanos, nanosPerSec, mk.injEq] at h ⊢
  omega

/-- The `Duration` of `n` nanoseconds, below the largest one. -/
def fromNanos (n : Nat) (h : n < 2 ^ 64 * nanosPerSec) : Duration where
  secs := n / nanosPerSec
  nanos := n % nanosPerSec
  secs_lt := by unfold nanosPerSec at *; omega
  nanos_lt := Nat.mod_lt _ (by decide)

@[simp] theorem asNanos_fromNanos (n : Nat) (h : n < 2 ^ 64 * nanosPerSec) :
    (fromNanos n h).asNanos = n := by
  simp only [fromNanos, asNanos, nanosPerSec]; omega

/-- `Duration::from_millis` of a `u64`. -/
def fromMillis (millis : Nat) (h : millis < 2 ^ 64) : Duration where
  secs := millis / 1000
  nanos := millis % 1000 * 1000000
  secs_lt := by omega
  nanos_lt := by unfold nanosPerSec; omega

@[simp] theorem asNanos_fromMillis (millis : Nat) (h : millis < 2 ^ 64) :
    (fromMillis millis h).asNanos = millis * 1000000 := by
  simp only [fromMillis, asNanos, nanosPerSec]; omega

/-- `Duration::is_zero`. -/
def isZero (d : Duration) : Bool := d.secs == 0 && d.nanos == 0

theorem isZero_iff (d : Duration) : d.isZero = true ↔ d.asNanos = 0 := by
  unfold isZero asNanos nanosPerSec
  simp only [Bool.and_eq_true, beq_iff_eq]
  omega

/-- The derived order of `Duration`: lexicographic on `(secs, nanos)`. -/
instance : LT Duration := ⟨fun a b => a.secs < b.secs ∨ (a.secs = b.secs ∧ a.nanos < b.nanos)⟩

instance (a b : Duration) : Decidable (a < b) :=
  inferInstanceAs (Decidable (a.secs < b.secs ∨ (a.secs = b.secs ∧ a.nanos < b.nanos)))

theorem lt_iff_asNanos_lt {a b : Duration} : a < b ↔ a.asNanos < b.asNanos := by
  have := a.nanos_lt; have := b.nanos_lt
  show a.secs < b.secs ∨ (a.secs = b.secs ∧ a.nanos < b.nanos) ↔ _
  unfold asNanos nanosPerSec at *
  constructor
  · rintro (h | ⟨h, h'⟩)
    · have : a.secs * 1000000000 + 1000000000 ≤ b.secs * 1000000000 := by omega
      omega
    · rw [h]; omega
  · intro h
    rcases Nat.lt_trichotomy a.secs b.secs with h' | h' | h'
    · exact .inl h'
    · exact .inr ⟨h', by rw [h'] at h; omega⟩
    · have : b.secs * 1000000000 + 1000000000 ≤ a.secs * 1000000000 := by omega
      omega

/-- `Duration::checked_mul` by a `u32`: `none` when the seconds leave `u64`. The operator
`Duration * u32` panics exactly there. -/
def checkedMul (d : Duration) (rhs : Nat) : Option Duration :=
  let totalNanos := d.nanos * rhs
  let extraSecs := totalNanos / nanosPerSec
  if h : d.secs * rhs + extraSecs < 2 ^ 64 then
    some ⟨d.secs * rhs + extraSecs, totalNanos % nanosPerSec, h, Nat.mod_lt _ (by decide)⟩
  else none

/-- The product is exact, and it exists exactly when it is below the largest `Duration`. -/
theorem checkedMul_spec (d : Duration) (rhs : Nat) :
    (∀ m, d.checkedMul rhs = some m → m.asNanos = d.asNanos * rhs) ∧
      (d.asNanos * rhs < 2 ^ 64 * nanosPerSec → (d.checkedMul rhs).isSome) := by
  have key : (d.secs * rhs + d.nanos * rhs / nanosPerSec) * nanosPerSec
      + d.nanos * rhs % nanosPerSec = d.asNanos * rhs := by
    unfold asNanos
    rw [Nat.add_mul, Nat.add_mul, Nat.add_assoc, Nat.div_add_mod', Nat.mul_right_comm d.secs]
  unfold checkedMul
  dsimp only
  refine ⟨fun m hm => ?_, fun hlt => ?_⟩
  · split at hm
    · cases hm; exact key
    · cases hm
  · rw [dif_pos]; · rfl
    rw [← key] at hlt
    unfold nanosPerSec at *; omega

/-- `a.saturating_sub(b)`. -/
def saturatingSub (a b : Duration) : Duration :=
  fromNanos (a.asNanos - b.asNanos) (Nat.lt_of_le_of_lt (Nat.sub_le _ _) a.asNanos_lt)

@[simp] theorem asNanos_saturatingSub (a b : Duration) :
    (a.saturatingSub b).asNanos = a.asNanos - b.asNanos := asNanos_fromNanos _ _

end Duration

/-! ## `Instant` -/

/-- A reading of the monotonic clock, as the time since the clock's origin. -/
structure Instant where
  sinceOrigin : Duration
deriving DecidableEq

namespace Instant

/-- The reading in nanoseconds since the clock's origin. -/
def nanos (t : Instant) : Nat := t.sinceOrigin.asNanos

/-- `later.duration_since(earlier)`, zero when `earlier` is the later one; `earlier.elapsed()`
read at `later` is this. -/
def durationSince (later earlier : Instant) : Duration :=
  later.sinceOrigin.saturatingSub earlier.sinceOrigin

@[simp] theorem asNanos_durationSince (later earlier : Instant) :
    (later.durationSince earlier).asNanos = later.nanos - earlier.nanos :=
  Duration.asNanos_saturatingSub _ _

end Instant

end HalaIo
