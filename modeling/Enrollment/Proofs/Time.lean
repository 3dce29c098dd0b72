import Enrollment.Exchange.Board
import Enrollment.Proofs.Trace
namespace Enrollment

/-!
# Time passes while questions are answered

A pace says how far the time may move while one question is answered.  A trace
keeps a pace from one point in time to another if each of its questions does,
and the clock shows the time at which it is looked at.
-/

open Program

abbrev Pace := Event → Duration → Duration → Prop

/-- Time never goes back, and a sleep lasts at least as long as it should. -/
def Pace.forward : Pace
  | ⟨.clock, now⟩, t, u => t ≤ now ∧ now ≤ u
  | ⟨.sleep d, _⟩, t, u => t + d ≤ u
  | _, t, u => t ≤ u

/-- Only sleeps and waits take time; a sleep is exact, and a wait ends by its
deadline. -/
def Pace.exact : Pace
  | ⟨.clock, now⟩, t, u => now = t ∧ u = t
  | ⟨.sleep d, _⟩, t, u => u = t + d
  | ⟨.send _ deadline, _⟩, t, u => t ≤ u ∧ u ≤ Board.cutoff t deadline
  | _, t, u => u = t

/-- Only sleeps take time, and they are exact. -/
def Pace.instant : Pace
  | ⟨.clock, now⟩, t, u => now = t ∧ u = t
  | ⟨.sleep d, _⟩, t, u => u = t + d
  | _, t, u => u = t

/-- The questions are answered one after the other, from one point in time to
another. -/
inductive Timed (pace : Pace) : Duration → List Event → Duration → Prop
  | nil (t : Duration) : Timed pace t [] t
  | cons {e : Event} {events : List Event} {t u v : Duration} (h : pace e t u)
      (hrest : Timed pace u events v) : Timed pace t (e :: events) v

namespace Timed

variable {pace : Pace} {e : Event} {events before after : List Event} {t u v : Duration}

theorem nil_iff : Timed pace t [] u ↔ u = t := by
  constructor
  · rintro ⟨⟩
    rfl
  · rintro rfl
    exact .nil _

theorem cons_iff : Timed pace t (e :: events) v ↔ ∃ u, pace e t u ∧ Timed pace u events v := by
  constructor
  · intro h
    cases h with
    | cons h hrest => exact ⟨_, h, hrest⟩
  · rintro ⟨u, h, hrest⟩
    exact .cons h hrest

theorem append_iff :
    Timed pace t (before ++ after) v ↔ ∃ u, Timed pace t before u ∧ Timed pace u after v := by
  induction before generalizing t with
  | nil =>
    simp only [List.nil_append, nil_iff]
    exact ⟨fun h ↦ ⟨t, rfl, h⟩, fun ⟨_, hu, h⟩ ↦ hu ▸ h⟩
  | cons e before ih =>
    simp only [List.cons_append, cons_iff, ih]
    constructor
    · rintro ⟨w, he, u, hbefore, hafter⟩
      exact ⟨u, ⟨w, he, hbefore⟩, hafter⟩
    · rintro ⟨u, ⟨w, he, hbefore⟩, hafter⟩
      exact ⟨w, he, u, hbefore, hafter⟩

theorem mono {pace' : Pace} (hpace : ∀ e t u, pace e t u → pace' e t u)
    (h : Timed pace t events u) : Timed pace' t events u := by
  induction h with
  | nil t => exact .nil t
  | cons he _ ih => exact .cons (hpace _ _ _ he) ih

end Timed

namespace Pace

variable {e : Event} {t u : Duration}

theorem le_of_forward (h : Pace.forward e t u) : t ≤ u := by
  obtain ⟨query, answer⟩ := e
  cases query with
  | clock => exact Std.le_trans h.1 h.2
  | sleep d =>
    have hnanos : t.nanos + d.nanos ≤ u.nanos := h
    rw [Duration.le_def]
    omega
  | _ => exact h

theorem forward_of_exact (e : Event) (t u : Duration) (h : Pace.exact e t u) :
    Pace.forward e t u := by
  obtain ⟨query, answer⟩ := e
  cases query with
  | clock =>
    obtain ⟨rfl, rfl⟩ := h
    exact ⟨Std.le_refl _, Std.le_refl _⟩
  | send call deadline => exact h.1
  | _ =>
    obtain rfl := h
    exact Std.le_refl _

theorem exact_of_instant (e : Event) (t u : Duration) (h : Pace.instant e t u) :
    Pace.exact e t u := by
  obtain ⟨query, answer⟩ := e
  cases query with
  | send call deadline =>
    obtain rfl := h
    refine ⟨Std.le_refl _, ?_⟩
    rw [Board.cutoff, Duration.le_def, Duration.nanos_max]
    omega
  | _ => exact h

theorem forward_of_instant (e : Event) (t u : Duration) (h : Pace.instant e t u) :
    Pace.forward e t u :=
  forward_of_exact e t u (exact_of_instant e t u h)

end Pace

theorem Timed.le {events : List Event} {t u : Duration} (h : Timed Pace.forward t events u) :
    t ≤ u := by
  induction h with
  | nil t => exact Std.le_refl t
  | cons he _ ih => exact Std.le_trans (Pace.le_of_forward he) ih

theorem Timed.forward {events : List Event} {t u : Duration}
    (h : Timed Pace.instant t events u) : Timed Pace.forward t events u :=
  h.mono Pace.forward_of_instant

/-- At an instant pace nothing but sleep takes time. -/
theorem Timed.eq_of_no_sleep {events : List Event} {t u : Duration}
    (h : Timed Pace.instant t events u) (hsleep : Topic.sleep ∉ topics events) : u = t := by
  induction h with
  | nil t => rfl
  | @cons e events t u v he hrest ih =>
    obtain ⟨query, answer⟩ := e
    rw [topics_cons, List.mem_cons, not_or] at hsleep
    have hnow : u = t := by
      cases query with
      | clock => exact he.2
      | sleep d => exact absurd rfl hsleep.1
      | _ => exact he
    exact (ih hsleep.2).trans hnow

/-- A timeline may be begun at the first look at the clock. -/
theorem Timed.of_clock {events : List Event} {t u now : Duration}
    (h : Timed Pace.forward t (⟨.clock, now⟩ :: events) u) :
    t ≤ now ∧ Timed Pace.forward now (⟨.clock, now⟩ :: events) u := by
  obtain ⟨w, hclock, hrest⟩ := Timed.cons_iff.mp h
  exact ⟨hclock.1, .cons ⟨Std.le_refl now, hclock.2⟩ hrest⟩

/-! ### A run at an instant pace -/

namespace Program

variable {α : Type} {answer : (q : Query) → q.Answer}

/-- A run in which the clock shows the time, sleeps pass it, and all else is
answered as given; with the time at which it ends. -/
def passing (answer : (q : Query) → q.Answer) : Duration → Program α → List Event × α × Duration
  | t, .done a => ([], a, t)
  | t, .ask .clock next =>
    let rest := passing answer t (next t)
    (⟨.clock, t⟩ :: rest.1, rest.2)
  | t, .ask (.sleep d) next =>
    let rest := passing answer (t + d) (next ())
    (⟨.sleep d, ()⟩ :: rest.1, rest.2)
  | t, .ask query next =>
    let rest := passing answer t (next (answer query))
    (⟨query, answer query⟩ :: rest.1, rest.2)

theorem runs_passing (answer : (q : Query) → q.Answer) (p : Program α) (t : Duration) :
    Runs p (p.passing answer t).1 (p.passing answer t).2.1 := by
  induction p generalizing t with
  | done a => exact .done a
  | ask query next ih =>
    cases query with
    | clock => exact .ask _ _ (ih t t)
    | sleep d => exact .ask _ _ (ih () (t + d))
    | _ => exact .ask _ _ (ih _ t)

theorem timed_passing (answer : (q : Query) → q.Answer) (p : Program α) (t : Duration) :
    Timed Pace.instant t (p.passing answer t).1 (p.passing answer t).2.2 := by
  induction p generalizing t with
  | done a => exact .nil t
  | ask query next ih =>
    cases query with
    | clock => exact .cons ⟨rfl, rfl⟩ (ih t t)
    | sleep d => exact .cons rfl (ih () (t + d))
    | _ => exact .cons rfl (ih _ t)

end Program
end Enrollment
