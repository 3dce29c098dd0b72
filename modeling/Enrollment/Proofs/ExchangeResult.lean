import Enrollment.Proofs.ExchangeHistory
import Enrollment.Proofs.Time
namespace Enrollment

/-!
# What an exchange comes to

A call is refused at once, or its exchange waits, while callbacks are used on the
board, until its own one is used or the cut-off is over.  So its result is told by the
error it was refused with and by the first use of its callback.
-/

open Program

/-! ### A wait goes on until it finds something -/

/-- Only the use of a callback has a time of its own. -/
def Happening.time? : Happening → Option Duration
  | .use _ time _ => some time
  | _ => none

/-- Things are told in the order in which they happen. -/
def Chronological (history : List Happening) : Prop :=
  (history.filterMap Happening.time?).Pairwise (· ≤ ·)

/-- What an exchange finds that looks at the board, and as long as its callback has not
been used lets things happen up to the cut-off. -/
inductive Finds (exchange : Nat) (cutoff : Duration) : Board → List Happening → Arrival → Prop
  | used {board : Board} {time : Duration} {u : Use} {history : List Happening}
    (h : board.usage? exchange = some (time, u)) : Finds exchange cutoff board history u.arrival
  | waits {board : Board} {happening : Happening} {rest : List Happening} {arrival : Arrival}
    (h : board.usage? exchange = none) (hsoon : ∀ time, happening.time? = some time → time ≤ cutoff)
    (hrest : Finds exchange cutoff (board.happen happening) rest arrival) :
    Finds exchange cutoff board (happening :: rest) arrival
  | late {board : Board} {other : Nat} {time : Duration} {u : Use} {rest : List Happening}
    (h : board.usage? exchange = none) (hlate : cutoff < time) :
    Finds exchange cutoff board (.use other time u :: rest) .nothing
  | silent {board : Board} (h : board.usage? exchange = none) :
    Finds exchange cutoff board [] .nothing

section Waits

variable {started exchange : Nat} {returned : List Nat} {board : Board}
  {history rest : List Happening} {issued deadline time : Duration} {arrival : Arrival}

theorem Chronological.tail {happening : Happening} (h : Chronological (happening :: rest)) :
    Chronological rest := by
  unfold Chronological at *
  rw [List.filterMap_cons] at h
  split at h
  · exact h
  · exact (List.pairwise_cons.mp h).2

/-- No callback is used before the use that is told first. -/
theorem Chronological.le {other : Nat} {u : Use} (h : Chronological (.use other time u :: rest)) :
    ∀ used ∈ usesOf exchange (.use other time u :: rest), time ≤ used.1 := by
  intro used hused
  obtain ⟨happening, hmem, hown⟩ := List.mem_filterMap.mp hused
  rcases List.mem_cons.mp hmem with rfl | hrest
  · dsimp only at hown
    split at hown
    · obtain rfl := Option.some.inj hown
      exact Std.le_refl time
    · exact nomatch hown
  · refine (List.pairwise_cons.mp h).1 used.1 (List.mem_filterMap.mpr ⟨happening, hrest, ?_⟩)
    cases happening with
    | use other' time' u' =>
      dsimp only at hown
      split at hown
      · obtain rfl := Option.some.inj hown
        rfl
      · exact nomatch hown
    | _ => exact nomatch hown

theorem Chronological.pairwise (h : Chronological history) :
    (usesOf exchange history).Pairwise fun used used' ↦ used.1 ≤ used'.1 := by
  induction history with
  | nil => exact .nil
  | cons happening rest ih =>
    cases happening with
    | use other time u =>
      have hfirst : ∀ used ∈ usesOf exchange (.use other time u :: rest), time ≤ used.1 := h.le
      rcases Nat.decEq other exchange with hne | rfl
      · rw [usesOf_use_of_ne hne]
        exact ih h.tail
      · rw [usesOf_use_self] at hfirst ⊢
        exact .cons (fun used hused ↦ hfirst used (List.mem_cons_of_mem _ hused)) (ih h.tail)
    | _ => exact ih h.tail

/-- What has been used by the cut-off stays so. -/
theorem finds_used (hproper : Proper started returned history)
    (hlength : board.slots.length = started) {u : Use}
    (hused : board.usage? exchange = some (time, u)) (hpast : time ≤ Board.cutoff issued deadline) :
    Finds exchange (Board.cutoff issued deadline) board history
      ((board.after history).arrival exchange issued deadline) := by
  have hafter : (board.after history).usage? exchange = some (time, u) := by
    rw [usage?_after hproper hlength, hused]
    rfl
  have harrival : (board.after history).arrival exchange issued deadline = u.arrival := by
    rw [Board.arrival, hafter]
    exact if_pos hpast
  rw [harrival]
  exact .used hused

/-- No use of a callback after the cut-off is found. -/
theorem arrival_of_late (hproper : Proper started returned history)
    (hlength : board.slots.length = started) (hunused : board.usage? exchange = none)
    (hlate : ∀ used ∈ usesOf exchange history, Board.cutoff issued deadline < used.1) :
    (board.after history).arrival exchange issued deadline = .nothing := by
  have hafter : (board.after history).usage? exchange = (usesOf exchange history).head? := by
    rw [usage?_after hproper hlength, hunused]
    rfl
  rw [Board.arrival, hafter]
  cases huses : usesOf exchange history with
  | nil => rfl
  | cons used more =>
    have hhead : ¬ used.1 ≤ Board.cutoff issued deadline :=
      Nat.not_le.mpr (hlate used (huses ▸ List.mem_cons_self))
    exact if_neg hhead

/-- A wait finds step by step what the board says in the end. -/
theorem finds_arrival (hproper : Proper started returned history)
    (hlength : board.slots.length = started) (hordered : Chronological history)
    (hpast : ∀ time u, board.usage? exchange = some (time, u) →
      time ≤ Board.cutoff issued deadline) :
    Finds exchange (Board.cutoff issued deadline) board history
      ((board.after history).arrival exchange issued deadline) := by
  induction history generalizing started returned board with
  | nil =>
    cases hused : board.usage? exchange with
    | some used => exact finds_used hproper hlength hused (hpast _ _ hused)
    | none =>
      rw [arrival_of_late hproper hlength hused nofun]
      exact .silent hused
  | cons happening rest ih =>
    cases hused : board.usage? exchange with
    | some used => exact finds_used hproper hlength hused (hpast _ _ hused)
    | none =>
      cases happening with
      | start =>
        have hstart : board.start.slots.length = started + 1 := by
          rw [Board.length_start, hlength]
        refine .waits hused nofun (ih hproper hstart hordered.tail ?_)
        rwa [Board.happen, Board.usage?_start]
      | use other time u =>
        by_cases hsoon : time ≤ Board.cutoff issued deadline
        · have huse : (board.use other time u).slots.length = started := by
            rw [Board.length_use, hlength]
          have hnow : ∀ time', (Happening.use other time u).time? = some time' →
              time' ≤ Board.cutoff issued deadline := by
            rintro time' ⟨⟩
            exact hsoon
          refine .waits hused hnow (ih hproper.2 huse hordered.tail fun time' u' hnew ↦ ?_)
          rcases Nat.decEq other exchange with hne | rfl
          · rw [Board.happen, Board.usage?_use_of_ne board hne] at hnew
            exact hpast time' u' hnew
          · rw [Board.happen, Board.usage?_use_self board (hlength ▸ hproper.1), hused] at hnew
            obtain ⟨rfl, -⟩ := Prod.mk.inj (Option.some.inj hnew)
            exact hsoon
        · have hlate : Board.cutoff issued deadline < time := Nat.not_le.mp hsoon
          have hnothing := arrival_of_late hproper hlength hused fun used hmem ↦
            Nat.lt_of_lt_of_le hlate (hordered.le used hmem)
          rw [hnothing]
          exact .late hused hlate
      | finish other refusal issued' deadline' =>
        exact .waits hused nofun (ih hproper.2.2 hlength hordered.tail hpast)

/-- A wait finds one thing. -/
theorem Finds.unique {cutoff : Duration} {arrival' : Arrival}
    (h : Finds exchange cutoff board history arrival)
    (h' : Finds exchange cutoff board history arrival') : arrival = arrival' := by
  induction h with
  | used hused =>
    cases h' with
    | used hused' =>
      obtain ⟨-, rfl⟩ := Prod.mk.inj (Option.some.inj (hused.symm.trans hused'))
      rfl
    | waits hnone => exact nomatch hused.symm.trans hnone
    | late hnone => exact nomatch hused.symm.trans hnone
    | silent hnone => exact nomatch hused.symm.trans hnone
  | waits hnone hsoon hrest ih =>
    cases h' with
    | used hused => exact nomatch hused.symm.trans hnone
    | waits _ _ hrest' => exact ih hrest'
    | late _ hlate => exact absurd (hsoon _ rfl) (Nat.not_le.mpr hlate)
  | late hnone hlate =>
    cases h' with
    | used hused => exact nomatch hused.symm.trans hnone
    | waits _ hsoon => exact absurd (hsoon _ rfl) (Nat.not_le.mpr hlate)
    | late => rfl
  | silent hnone =>
    cases h' with
    | used hused => exact nomatch hused.symm.trans hnone
    | silent => rfl

end Waits

/-! ### Schedules -/

/-- What is done with a call that is sent on a board: the error it is refused with, when
issuing it is over, and what happens to callbacks from the start of its exchange on, no
matter how late. -/
structure Schedule (board : Board) where
  refusal : Option Error
  issued : Duration
  history : List Happening
  returned : List Nat
  proper : Proper (board.next + 1) returned history
  ordered : Chronological history

namespace Schedule

variable {board : Board} (s : Schedule board)

/-- How the callback of the exchange is used. -/
def uses : List (Duration × Use) := usesOf board.next s.history

/-- A wait ends at the deadline, or when issuing is over if that is later. -/
def cutoff (deadline : Duration) : Duration := max s.issued deadline

/-- What becomes of the call, as the board tells it in the end. -/
def reply (deadline : Duration) : Reply :=
  (board.start.after s.history).reply board.next s.refusal s.issued deadline

/-- What becomes of the call, as it comes about. -/
inductive Fares (deadline : Duration) : Reply → Prop
  | refused {error : Error} (h : s.refusal = some error) : Fares deadline (.rejected error)
  | waited {arrival : Arrival} (h : s.refusal = none)
    (hfinds : Finds board.next (s.cutoff deadline) board.start s.history arrival) :
    Fares deadline (.accepted arrival)

/-- Surroundings in which the time is `now` and this is done with the call. -/
def answer (now : Duration) (others : (q : Query) → q.Answer) : (q : Query) → q.Answer
  | .clock => now
  | .send _ deadline => s.reply deadline
  | q => others q

/-- What an accepted call comes to by the uses of its callback. -/
inductive Settled (operation : Operation) (timeout cutoff : Duration) :
    List (Duration × Use) → Except Error Bytes → Prop
  | body {time : Duration} {body : Bytes} {more : List (Duration × Use)} (htime : time ≤ cutoff)
    (hbody : body ≠ []) :
    Settled operation timeout cutoff ((time, .deliver (.ok (some body))) :: more) (.ok body)
  | failure {time : Duration} {error : Error} {more : List (Duration × Use)}
    (htime : time ≤ cutoff) :
    Settled operation timeout cutoff ((time, .deliver (.error error)) :: more) (.error error)
  | empty {time : Duration} {more : List (Duration × Use)} (htime : time ≤ cutoff) :
    Settled operation timeout cutoff ((time, .deliver (.ok (some []))) :: more)
      (.error (.noResponse operation))
  | absent {time : Duration} {more : List (Duration × Use)} (htime : time ≤ cutoff) :
    Settled operation timeout cutoff ((time, .deliver (.ok none)) :: more)
      (.error (.noResponse operation))
  | dropped {time : Duration} {more : List (Duration × Use)} (htime : time ≤ cutoff) :
    Settled operation timeout cutoff ((time, .drop) :: more) (.error (.noResponse operation))
  | unused {uses : List (Duration × Use)} (h : ∀ used ∈ uses, cutoff < used.1) :
    Settled operation timeout cutoff uses (.error (.timeout operation timeout))

/-- The calls an exchange sends and the result it has. -/
inductive Classified (timeout : Duration) (call : Call) (now : Duration) :
    List Call → Except Error Bytes → Prop
  | endless (h : Nat.pow 2 63 ≤ (now + timeout).secs) :
    Classified timeout call now [] (.error (.client (.longTimeout call.operation timeout)))
  | refused {error : Error} (h : (now + timeout).secs < Nat.pow 2 63)
    (hrefusal : s.refusal = some error) : Classified timeout call now [call] (.error error)
  | settled {result : Except Error Bytes} (h : (now + timeout).secs < Nat.pow 2 63)
    (hrefusal : s.refusal = none)
    (hsettled : Settled call.operation timeout (s.cutoff (now + timeout)) s.uses result) :
    Classified timeout call now [call] result

theorem fares_iff {deadline : Duration} {reply : Reply} :
    s.Fares deadline reply ↔ reply = s.reply deadline := by
  have hstart : board.start.slots.length = board.next + 1 := Board.length_start board
  have hfresh : board.start.usage? board.next = none := Board.usage?_start_self rfl
  have hfinds : Finds board.next (s.cutoff deadline) board.start s.history _ :=
    finds_arrival s.proper hstart s.ordered fun time u hused ↦ by
      rw [hfresh] at hused
      exact nomatch hused
  unfold Schedule.reply Board.reply
  constructor
  · rintro (h | ⟨h, hfound⟩)
    · rw [h]
    · rw [h, hfound.unique hfinds]
  · rintro rfl
    cases h : s.refusal with
    | some error => exact .refused h
    | none => exact .waited h hfinds

/-- The first use of the callback tells what becomes of the call. -/
theorem reply_eq (deadline : Duration) :
    s.reply deadline = settled s.refusal s.issued deadline s.uses.head? := by
  have hfresh : board.start.usage? board.next = none := Board.usage?_start_self rfl
  rw [Schedule.reply, reply_eq_settled, usage?_after s.proper (Board.length_start board), hfresh]
  rfl

section

variable {operation : Operation} {timeout deadline : Duration} {uses : List (Duration × Use)}
  {result : Except Error Bytes}

theorem settled_of_le {time : Duration} (u : Use) (htime : time ≤ s.cutoff deadline) :
    settled none s.issued deadline (some (time, u)) = .accepted u.arrival :=
  congrArg Reply.accepted (if_pos htime)

theorem settled_of_lt {time : Duration} (u : Use) (htime : s.cutoff deadline < time) :
    settled none s.issued deadline (some (time, u)) = .accepted .nothing :=
  congrArg Reply.accepted (if_neg (Nat.not_le.mpr htime))

theorem Settled.eq (h : Settled operation timeout (s.cutoff deadline) uses result) :
    result = (settled none s.issued deadline uses.head?).body operation timeout := by
  cases h with
  | @body time body more htime hbody =>
    rw [List.head?_cons, s.settled_of_le _ htime]
    cases body with
    | nil => exact absurd rfl hbody
    | cons b bs => rfl
  | failure htime | empty htime | absent htime | dropped htime =>
    rw [List.head?_cons, s.settled_of_le _ htime]
    rfl
  | unused hlate =>
    cases uses with
    | nil => rfl
    | cons used more =>
      rw [List.head?_cons, s.settled_of_lt used.2 (hlate used List.mem_cons_self)]
      rfl

theorem settled_of_pairwise (h : uses.Pairwise fun used used' ↦ used.1 ≤ used'.1) :
    Settled operation timeout (s.cutoff deadline) uses
      ((settled none s.issued deadline uses.head?).body operation timeout) := by
  cases uses with
  | nil => exact .unused nofun
  | cons used more =>
    obtain ⟨time, u⟩ := used
    rw [List.head?_cons]
    by_cases htime : time ≤ s.cutoff deadline
    · rw [s.settled_of_le u htime]
      match u with
      | .drop => exact .dropped htime
      | .deliver (.error error) => exact .failure htime
      | .deliver (.ok none) => exact .absent htime
      | .deliver (.ok (some [])) => exact .empty htime
      | .deliver (.ok (some (b :: bs))) => exact .body htime (List.cons_ne_nil b bs)
    · have hlate : s.cutoff deadline < time := Nat.not_le.mp htime
      rw [s.settled_of_lt u hlate]
      refine .unused fun used hused ↦ ?_
      rcases List.mem_cons.mp hused with rfl | hmore
      · exact hlate
      · exact Nat.lt_of_lt_of_le hlate ((List.pairwise_cons.mp h).1 used hmore)

/-- A call that is accepted comes to what its callback was used for first. -/
theorem settled_iff (hrefusal : s.refusal = none) :
    Settled operation timeout (s.cutoff deadline) s.uses result ↔
      result = (s.reply deadline).body operation timeout := by
  rw [s.reply_eq, hrefusal]
  constructor
  · exact fun h ↦ h.eq
  · rintro rfl
    exact s.settled_of_pairwise s.ordered.pairwise

end

/-! ### The result of an exchange -/

/-- The questions an exchange asks in such surroundings, and what it comes to. -/
def course (now : Duration) (others : (q : Query) → q.Answer) (timeout : Duration) (call : Call) :
    List Event × Except Error Bytes :=
  (exchange timeout call).follow (s.answer now others)

variable {timeout now : Duration} {call : Call} (others : (q : Query) → q.Answer)

theorem course_endless (h : Nat.pow 2 63 ≤ (now + timeout).secs) :
    s.course now others timeout call =
      ([⟨.clock, now⟩], .error (.client (.longTimeout call.operation timeout))) := by
  have hdeadline : deadline? (s.answer now others .clock) timeout = none :=
    if_neg (Nat.not_lt.mpr h)
  simp only [course, follow_exchange, hdeadline]
  rfl

theorem course_timely (h : (now + timeout).secs < Nat.pow 2 63) :
    s.course now others timeout call =
      ([⟨.clock, now⟩, ⟨.send call (now + timeout), s.reply (now + timeout)⟩],
        (s.reply (now + timeout)).body call.operation timeout) := by
  have hdeadline : deadline? (s.answer now others .clock) timeout = some (now + timeout) :=
    if_pos h
  simp only [course, follow_exchange, hdeadline]
  rfl

theorem classified_iff {sent : List Call} {result : Except Error Bytes} :
    s.Classified timeout call now sent result ↔
      sent = calls (s.course now others timeout call).1 ∧
        result = (s.course now others timeout call).2 := by
  constructor
  · rintro (hout | ⟨hin, hrefusal⟩ | ⟨hin, hrefusal, hsettled⟩)
    · rw [s.course_endless others hout]
      exact ⟨rfl, rfl⟩
    · rw [s.course_timely others hin, s.reply_eq, hrefusal]
      exact ⟨rfl, rfl⟩
    · rw [s.course_timely others hin]
      exact ⟨rfl, (s.settled_iff hrefusal).mp hsettled⟩
  · rintro ⟨rfl, rfl⟩
    rcases Nat.lt_or_ge (now + timeout).secs (Nat.pow 2 63) with hin | hout
    · rw [s.course_timely others hin]
      cases hrefusal : s.refusal with
      | some error =>
        rw [s.reply_eq, hrefusal]
        exact .refused hin hrefusal
      | none => exact .settled hin hrefusal ((s.settled_iff hrefusal).mpr rfl)
    · rw [s.course_endless others hout]
      exact .endless hout

/-- The call is sent to wait until its deadline, and the wait is what it is step by
step. -/
theorem fares_of_mem_course {deadline : Duration} {reply : Reply}
    (h : ⟨.send call deadline, reply⟩ ∈ (s.course now others timeout call).1) :
    deadline = now + timeout ∧ s.Fares deadline reply := by
  rcases Nat.lt_or_ge (now + timeout).secs (Nat.pow 2 63) with hin | hout
  · rw [s.course_timely others hin] at h
    have hsend : (⟨.send call deadline, reply⟩ : Event) =
        ⟨.send call (now + timeout), s.reply (now + timeout)⟩ := by
      simpa using h
    cases hsend
    exact ⟨rfl, s.fares_iff.mpr rfl⟩
  · rw [s.course_endless others hout] at h
    simp at h

/-- Nobody can tell whether a call was refused with an error or has failed with it. -/
theorem course_refused_eq_failed {other : Schedule board} {error : Error} {time : Duration}
    {more : List (Duration × Use)} (hrefusal : s.refusal = some error)
    (haccepted : other.refusal = none)
    (huses : other.uses = (time, .deliver (.error error)) :: more)
    (htime : time ≤ other.cutoff (now + timeout)) :
    (s.course now others timeout call).2 = (other.course now others timeout call).2 := by
  rcases Nat.lt_or_ge (now + timeout).secs (Nat.pow 2 63) with hin | hout
  · have hsettled : Settled call.operation timeout (other.cutoff (now + timeout)) other.uses
        (.error error) := huses ▸ .failure htime
    have hrefused : s.Classified timeout call now [call] (.error error) := .refused hin hrefusal
    have hfailed : other.Classified timeout call now [call] (.error error) :=
      .settled hin haccepted hsettled
    exact ((s.classified_iff others).mp hrefused).2.symm.trans
      ((other.classified_iff others).mp hfailed).2
  · rw [s.course_endless others hout, other.course_endless others hout]

end Schedule

/-- The schedule of an exchange tells, in one way, whether its call is sent and what it comes
to, and an error that it is refused with is the same as one that it fails with. -/
theorem exchange_classified {board : Board} (s : Schedule board) (now timeout : Duration)
    (call : Call) (others : (q : Query) → q.Answer) :
    (∀ sent result, s.Classified timeout call now sent result ↔
      sent = calls (s.course now others timeout call).1 ∧
        result = (s.course now others timeout call).2) ∧
    (∀ deadline reply, ⟨.send call deadline, reply⟩ ∈ (s.course now others timeout call).1 →
      deadline = now + timeout ∧ s.Fares deadline reply) ∧
    ∀ (other : Schedule board) (error : Error) (time : Duration) (more : List (Duration × Use)),
      s.refusal = some error → other.refusal = none →
      other.uses = (time, .deliver (.error error)) :: more →
      time ≤ other.cutoff (now + timeout) →
      (s.course now others timeout call).2 = (other.course now others timeout call).2 :=
  ⟨fun _ _ ↦ s.classified_iff others, fun _ _ ↦ s.fares_of_mem_course others,
    fun _ _ _ _ ↦ s.course_refused_eq_failed others⟩

/-! Two calls beside an older exchange, whose own reply comes late: one is refused, of the
other the issue returns after the deadline, and the callback has failed by then. -/

def refusedCall : Schedule Board.empty.start where
  refusal := some (.transport "refused")
  issued := .zero
  history := [.use 1 .zero (.deliver (.ok (some [1])))]
  returned := []
  proper := by simp [Proper, Board.next, Board.start, Board.empty]
  ordered := List.pairwise_singleton _ _

def failedCall : Schedule Board.empty.start where
  refusal := none
  issued := .ofSecs 3
  history := [.use 0 .zero (.deliver (.ok (some [1]))), .start,
    .use 1 (.ofSecs 2) (.deliver (.error (.transport "refused"))), .use 1 (.ofSecs 4) .drop]
  returned := [0]
  proper := by simp [Proper, Board.next, Board.start, Board.empty]
  ordered := by
    show List.Pairwise _ [Duration.zero, .ofSecs 2, .ofSecs 4]
    decide

def askedStatus : Call := .getStatus "operation" "device" .serverAuthOnly none

theorem exchange_classified_failed :
    refusedCall.refusal = some (.transport "refused") ∧ failedCall.refusal = none ∧
      failedCall.uses =
        [(.ofSecs 2, .deliver (.error (.transport "refused"))), (.ofSecs 4, .drop)] ∧
      Duration.ofSecs 2 ≤ failedCall.cutoff (.zero + .ofSecs 1) ∧
      failedCall.Classified (.ofSecs 1) askedStatus .zero [askedStatus]
        (.error (.transport "refused")) ∧
      ⟨.send askedStatus (.zero + .ofSecs 1), failedCall.reply (.zero + .ofSecs 1)⟩ ∈
        (failedCall.course .zero granted (.ofSecs 1) askedStatus).1 ∧
      failedCall.Fares (.zero + .ofSecs 1) (failedCall.reply (.zero + .ofSecs 1)) ∧
      (refusedCall.course .zero granted (.ofSecs 1) askedStatus).2 =
        .error (.transport "refused") := by
  have huses : failedCall.uses =
      [(.ofSecs 2, .deliver (.error (.transport "refused"))), (.ofSecs 4, .drop)] := rfl
  have htime : Duration.ofSecs 2 ≤ failedCall.cutoff (.zero + .ofSecs 1) := by decide
  have hin : (Duration.zero + .ofSecs 1).secs < Nat.pow 2 63 := by decide
  have hclassified : failedCall.Classified (.ofSecs 1) askedStatus .zero [askedStatus]
      (.error (.transport "refused")) := .settled hin rfl (huses ▸ .failure htime)
  have hsent : ⟨.send askedStatus (.zero + .ofSecs 1), failedCall.reply (.zero + .ofSecs 1)⟩ ∈
      (failedCall.course .zero granted (.ofSecs 1) askedStatus).1 := by
    rw [failedCall.course_timely granted hin]
    simp
  obtain ⟨hsorts, hfares, -⟩ :=
    exchange_classified failedCall .zero (.ofSecs 1) askedStatus granted
  have hsame := (exchange_classified refusedCall .zero (.ofSecs 1) askedStatus granted).2.2
    failedCall _ _ _ rfl rfl huses htime
  exact ⟨rfl, rfl, huses, htime, hclassified, hsent, (hfares _ _ hsent).2,
    hsame.trans ((hsorts _ _).mp hclassified).2.symm⟩

end Enrollment
