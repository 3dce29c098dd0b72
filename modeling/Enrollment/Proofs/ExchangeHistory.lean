import Enrollment.Exchange.Board
namespace Enrollment

/-!
# Histories of exchanges

A history is what happens on a board, in the order in which it happens: exchanges
start, callbacks are used, and exchanges return what their waits have found.
Exchanges may overlap, and a callback may be used long after its exchange has
returned.  What an exchange returns depends on its own callback alone.
-/

/-- An exchange returns with the error that its call was refused with, or after a
wait that began once the call was issued. -/
inductive Happening
  | start
  | use (exchange : Nat) (time : Duration) (use : Use)
  | finish (exchange : Nat) (refusal : Option Error) (issued deadline : Duration)

/-- What an exchange came to, and how long it might have waited. -/
structure Return where
  exchange : Nat
  deadline : Duration
  reply : Reply

namespace Board

def happen (board : Board) : Happening → Board
  | .start => board.start
  | .use exchange time use => board.use exchange time use
  | .finish .. => board

def after (board : Board) (history : List Happening) : Board := history.foldl happen board

/-- What the exchanges of a history return, in the order in which they do. -/
def returns : Board → List Happening → List Return
  | _, [] => []
  | board, .finish exchange refusal issued deadline :: rest =>
    ⟨exchange, deadline, board.reply exchange refusal issued deadline⟩ :: returns board rest
  | board, happening :: rest => returns (board.happen happening) rest

theorem returns_append (board : Board) (before rest : List Happening) :
    board.returns (before ++ rest) = board.returns before ++ (board.after before).returns rest := by
  induction before generalizing board with
  | nil => rfl
  | cons happening before ih =>
    cases happening with
    | finish exchange refusal issued deadline =>
      exact congrArg (_ :: ·) (ih board)
    | _ => exact ih _

theorem length_use (board : Board) (exchange : Nat) (time : Duration) (u : Use) :
    (board.use exchange time u).slots.length = board.slots.length := by
  simp [use]

theorem length_start (board : Board) : board.start.slots.length = board.slots.length + 1 := by
  simp [start]

@[simp] theorem usage?_empty (exchange : Nat) : empty.usage? exchange = none := rfl

theorem usage?_start_self {board : Board} {exchange : Nat}
    (hboard : board.slots.length = exchange) : board.start.usage? exchange = none := by
  rw [usage?_start, usage?, List.getElem?_eq_none (hboard ▸ Nat.le_refl _)]
  rfl

end Board

/-! ### Histories that can happen -/

/-- A callback is used, and an exchange returns, after the exchange has started;
and an exchange returns once.  So many exchanges have started before, and these
have returned. -/
def Proper (started : Nat) (returned : List Nat) : List Happening → Prop
  | [] => True
  | .start :: rest => Proper (started + 1) returned rest
  | .use exchange _ _ :: rest => exchange < started ∧ Proper started returned rest
  | .finish exchange _ _ _ :: rest =>
    exchange < started ∧ exchange ∉ returned ∧ Proper started (exchange :: returned) rest

/-- How an exchange's own callback was used. -/
def usesOf (exchange : Nat) (history : List Happening) : List (Duration × Use) :=
  history.filterMap fun
    | .use other time use => if other = exchange then some (time, use) else none
    | _ => none

/-- What an exchange returns, from what it was refused with, when it was issued,
how long it might wait, and how its own callback was first used. -/
def settled (refusal : Option Error) (issued deadline : Duration)
    (used : Option (Duration × Use)) : Reply :=
  match refusal, used with
  | some error, _ => .rejected error
  | none, none => .accepted .nothing
  | none, some (time, use) =>
    .accepted (if time ≤ Board.cutoff issued deadline then use.arrival else .nothing)

/-- A history without the uses of callbacks whose exchanges had returned. -/
def timely (returned : List Nat) : List Happening → List Happening
  | [] => []
  | .start :: rest => .start :: timely returned rest
  | .use exchange time use :: rest =>
    if exchange ∈ returned then timely returned rest
    else .use exchange time use :: timely returned rest
  | .finish exchange refusal issued deadline :: rest =>
    .finish exchange refusal issued deadline :: timely (exchange :: returned) rest

variable {started : Nat} {returned : List Nat} {board board' : Board}
  {history before rest : List Happening}

theorem usesOf_use_self (exchange : Nat) (time : Duration) (u : Use) (rest : List Happening) :
    usesOf exchange (.use exchange time u :: rest) = (time, u) :: usesOf exchange rest := by
  simp [usesOf]

theorem usesOf_use_of_ne {exchange other : Nat} (h : other ≠ exchange) (time : Duration) (u : Use)
    (rest : List Happening) :
    usesOf exchange (.use other time u :: rest) = usesOf exchange rest := by
  simp [usesOf, h]

/-- The first use of a callback stands. -/
theorem usage?_after (hproper : Proper started returned history)
    (hlength : board.slots.length = started) (exchange : Nat) :
    (board.after history).usage? exchange =
      (board.usage? exchange <|> (usesOf exchange history).head?) := by
  induction history generalizing started returned board with
  | nil => simp [Board.after, usesOf]
  | cons happening rest ih =>
    cases happening with
    | start =>
      have hstart : board.start.slots.length = started + 1 := by rw [Board.length_start, hlength]
      exact (ih hproper hstart).trans (by rw [Board.usage?_start]; rfl)
    | use other time u =>
      obtain ⟨hother, hrest⟩ := hproper
      have huse : (board.use other time u).slots.length = started := by
        rw [Board.length_use, hlength]
      have hstep := ih hrest huse
      rcases Nat.decEq other exchange with hne | rfl
      · rw [Board.usage?_use_of_ne board hne] at hstep
        rw [usesOf_use_of_ne hne]
        exact hstep
      · rw [Board.usage?_use_self board (hlength ▸ hother)] at hstep
        rw [usesOf_use_self]
        refine hstep.trans ?_
        cases board.usage? other <;> rfl
    | finish other refusal issued deadline => exact ih hproper.2.2 hlength

theorem usage?_after_empty (hproper : Proper 0 [] history) (exchange : Nat) :
    (Board.empty.after history).usage? exchange = (usesOf exchange history).head? := by
  have hlength : Board.empty.slots.length = 0 := rfl
  rw [usage?_after hproper hlength, Board.usage?_empty]
  rfl

theorem reply_eq_settled (board : Board) (exchange : Nat) (refusal : Option Error)
    (issued deadline : Duration) :
    board.reply exchange refusal issued deadline =
      settled refusal issued deadline (board.usage? exchange) := by
  cases refusal with
  | some error => rfl
  | none =>
    simp only [Board.reply, Board.arrival, settled]
    cases board.usage? exchange <;> rfl

/-- An exchange returns what its own callback was first used for before. -/
theorem returns_finish (hproper : Proper 0 [] before) (exchange : Nat) (refusal : Option Error)
    (issued deadline : Duration) (rest : List Happening) :
    Board.empty.returns (before ++ .finish exchange refusal issued deadline :: rest) =
      Board.empty.returns before ++
        ⟨exchange, deadline, settled refusal issued deadline (usesOf exchange before).head?⟩ ::
          (Board.empty.after before).returns rest := by
  rw [Board.returns_append, Board.returns, reply_eq_settled, usage?_after_empty hproper]

theorem Proper.of_append (h : Proper started returned (before ++ rest)) :
    Proper started returned before := by
  induction before generalizing started returned with
  | nil => trivial
  | cons happening before ih =>
    cases happening with
    | start => exact ih h
    | use exchange time u => exact ⟨h.1, ih h.2⟩
    | finish exchange refusal issued deadline => exact ⟨h.1, h.2.1, ih h.2.2⟩

/-- An exchange that has returned does not return again, and no other does twice. -/
theorem Proper.nodup_returns (h : Proper started returned history) (board : Board) :
    ((board.returns history).map Return.exchange).Nodup ∧
      ∀ r ∈ board.returns history, r.exchange ∉ returned := by
  induction history generalizing started returned board with
  | nil => exact ⟨List.nodup_nil, nofun⟩
  | cons happening rest ih =>
    cases happening with
    | start => exact ih h _
    | use exchange time u => exact ih h.2 _
    | finish exchange refusal issued deadline =>
      obtain ⟨-, hnew, hrest⟩ := h
      obtain ⟨hnodup, hothers⟩ := ih hrest board
      constructor
      · refine List.nodup_cons.mpr ⟨?_, hnodup⟩
        intro hmem
        obtain ⟨r, hr, hsame⟩ := List.mem_map.mp hmem
        exact hothers r hr (hsame ▸ List.mem_cons_self)
      · intro r hr
        rcases List.mem_cons.mp hr with rfl | hr
        · exact hnew
        · exact fun hmem ↦ hothers r hr (List.mem_cons_of_mem _ hmem)

/-- A use of a callback may be put in wherever its exchange has returned before. -/
theorem Proper.insert_late (h : Proper started returned (before ++ rest))
    (hall : ∀ other ∈ returned, other < started) {exchange : Nat}
    (hlate : exchange ∈ returned ∨ exchange ∈ (board.returns before).map Return.exchange)
    (time : Duration) (u : Use) :
    Proper started returned (before ++ .use exchange time u :: rest) ∧
      timely returned (before ++ .use exchange time u :: rest) =
        timely returned (before ++ rest) := by
  induction before generalizing started returned board with
  | nil =>
    have hreturned : exchange ∈ returned := hlate.resolve_right List.not_mem_nil
    exact ⟨⟨hall exchange hreturned, h⟩, if_pos hreturned⟩
  | cons happening before ih =>
    cases happening with
    | start =>
      obtain ⟨hproper, htimely⟩ := ih h (fun other hmem ↦ Nat.lt_succ_of_lt (hall other hmem)) hlate
      exact ⟨hproper, congrArg (_ :: ·) htimely⟩
    | use other time' u' =>
      obtain ⟨hother, hrest⟩ := h
      obtain ⟨hproper, htimely⟩ := ih hrest hall hlate
      refine ⟨⟨hother, hproper⟩, ?_⟩
      simp only [List.cons_append, timely, htimely]
    | finish other refusal issued deadline =>
      obtain ⟨hother, hnew, hrest⟩ := h
      have hall' : ∀ k ∈ other :: returned, k < started := List.forall_mem_cons.mpr ⟨hother, hall⟩
      have hlate' : exchange ∈ other :: returned ∨
          exchange ∈ (board.returns before).map Return.exchange := by
        rw [Board.returns, List.map_cons, List.mem_cons] at hlate
        rcases hlate with hmem | rfl | hmem
        · exact .inl (List.mem_cons_of_mem _ hmem)
        · exact .inl List.mem_cons_self
        · exact .inr hmem
      obtain ⟨hproper, htimely⟩ := ih hrest hall' hlate'
      exact ⟨⟨hother, hnew, hproper⟩, congrArg (_ :: ·) htimely⟩

/-- Two boards that are the same to all exchanges still waiting. -/
def Agree (returned : List Nat) (board board' : Board) : Prop :=
  ∀ exchange, exchange ∉ returned → board.usage? exchange = board'.usage? exchange

theorem Agree.start (h : Agree returned board board') :
    Agree returned board.start board'.start := by
  intro exchange hwaits
  rw [Board.usage?_start, Board.usage?_start]
  exact h exchange hwaits

theorem Agree.use (h : Agree returned board board') {exchange : Nat}
    (hboard : exchange < board.slots.length) (hboard' : exchange < board'.slots.length)
    (time : Duration) (u : Use) :
    Agree returned (board.use exchange time u) (board'.use exchange time u) := by
  intro other hwaits
  rcases Nat.decEq exchange other with hne | rfl
  · rw [Board.usage?_use_of_ne board hne, Board.usage?_use_of_ne board' hne]
    exact h other hwaits
  · rw [Board.usage?_use_self board hboard, Board.usage?_use_self board' hboard', h _ hwaits]

/-- A late use is seen by no exchange that still waits. -/
theorem Agree.use_late (h : Agree returned board board') {exchange : Nat}
    (hlate : exchange ∈ returned) (time : Duration) (u : Use) :
    Agree returned board (board'.use exchange time u) := by
  intro other hwaits
  have hne : exchange ≠ other := by
    rintro rfl
    exact hwaits hlate
  rw [Board.usage?_use_of_ne board' hne]
  exact h other hwaits

/-- What the exchanges return does not change when late uses are left out. -/
theorem returns_timely (hproper : Proper started returned history)
    (hboard : board.slots.length = started) (hboard' : board'.slots.length = started)
    (hagree : Agree returned board board') :
    board.returns (timely returned history) = board'.returns history := by
  induction history generalizing started returned board board' with
  | nil => rfl
  | cons happening rest ih =>
    cases happening with
    | start =>
      have hstart : board.start.slots.length = started + 1 := by rw [Board.length_start, hboard]
      have hstart' : board'.start.slots.length = started + 1 := by rw [Board.length_start, hboard']
      exact ih hproper hstart hstart' hagree.start
    | use exchange time u =>
      obtain ⟨hstarted, hrest⟩ := hproper
      have huse' : (board'.use exchange time u).slots.length = started := by
        rw [Board.length_use, hboard']
      by_cases hlate : exchange ∈ returned
      · rw [timely, if_pos hlate]
        exact ih hrest hboard huse' (hagree.use_late hlate time u)
      · have huse : (board.use exchange time u).slots.length = started := by
          rw [Board.length_use, hboard]
        rw [timely, if_neg hlate]
        exact ih hrest huse huse'
          (hagree.use (hboard.symm ▸ hstarted) (hboard'.symm ▸ hstarted) time u)
    | finish exchange refusal issued deadline =>
      obtain ⟨-, hnew, hrest⟩ := hproper
      have hagree' : Agree (exchange :: returned) board board' :=
        fun other hwaits ↦ hagree other fun hmem ↦ hwaits (List.mem_cons_of_mem _ hmem)
      simp only [timely, Board.returns, reply_eq_settled, hagree exchange hnew]
      exact congrArg (_ :: ·) (ih hrest hboard hboard' hagree')

end Enrollment
