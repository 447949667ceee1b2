/-!
# Spans of time

A span is a whole number of nanoseconds no larger than `Span.limit`, the largest number that
2^64 - 1 seconds and 999999999 nanoseconds make up. A sum of two spans may leave that range;
`Span.add?` then has no answer and `Span.add` reports an overflow.
-/

namespace Choreo

/-- The largest number of nanoseconds in a span. -/
def Span.limit : Nat := 18446744073709551615999999999

/-- A stretch of time in nanoseconds. -/
structure Span where
  ns : Nat
  ns_le : ns ≤ Span.limit

namespace Span

@[ext] theorem ext {a b : Span} (h : a.ns = b.ns) : a = b := by
  cases a; cases b; cases h; rfl

instance : DecidableEq Span := fun a b =>
  if h : a.ns = b.ns then .isTrue (Span.ext h) else .isFalse fun e => h (e ▸ rfl)

def zero : Span := ⟨0, Nat.zero_le _⟩

instance : Inhabited Span := ⟨zero⟩

def isZero (s : Span) : Bool := s.ns == 0

/-- The span of so many nanoseconds, if it is within the limit. -/
def ofNanos? (n : Nat) : Option Span := if h : n ≤ limit then some ⟨n, h⟩ else none

def ofMillis? (n : Nat) : Option Span := ofNanos? (n * 1000000)

def ofSeconds? (n : Nat) : Option Span := ofNanos? (n * 1000000000)

def add? (a b : Span) : Option Span := ofNanos? (a.ns + b.ns)

/-- What is left of `a` after `b`; nothing if `b` is the longer one. -/
def sub (a b : Span) : Span := ⟨a.ns - b.ns, Nat.le_trans (Nat.sub_le _ _) a.ns_le⟩

def millis (s : Span) : Nat := s.ns / 1000000

theorem ofNanos?_eq_some {n : Nat} {s : Span} : ofNanos? n = some s ↔ s.ns = n := by
  rw [ofNanos?]
  split
  · simp only [Option.some.injEq]
    exact ⟨fun h => h ▸ rfl, fun h => Span.ext h.symm⟩
  · rename_i h
    simp only [reduceCtorEq, false_iff]
    exact fun e => h (e ▸ s.ns_le)

theorem ofNanos?_eq_none {n : Nat} : ofNanos? n = none ↔ limit < n := by
  rw [ofNanos?]
  split <;> simp <;> omega

theorem add?_eq_some {a b s : Span} : a.add? b = some s ↔ s.ns = a.ns + b.ns := ofNanos?_eq_some

theorem add?_eq_none {a b : Span} : a.add? b = none ↔ limit < a.ns + b.ns := ofNanos?_eq_none

@[simp] theorem sub_ns (a b : Span) : (a.sub b).ns = a.ns - b.ns := rfl

end Span

/-- A sum of spans went beyond the limit. -/
inductive Overflow where
  | sumTooLong
  deriving DecidableEq

def Overflow.message : Overflow → String
  | .sumTooLong => "overflow when adding durations"

/-- The sum of two spans, or the report that it is too long. -/
def Span.add (a b : Span) : Except Overflow Span :=
  match a.add? b with
  | some sum => .ok sum
  | none => .error .sumTooLong

theorem Span.add_eq_ok {a b s : Span} : a.add b = .ok s ↔ s.ns = a.ns + b.ns := by
  rw [Span.add]
  rw [← Span.add?_eq_some]
  cases a.add? b <;> simp

end Choreo
