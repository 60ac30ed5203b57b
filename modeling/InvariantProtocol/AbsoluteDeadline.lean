import Mathlib.Data.Rat.Init
import Mathlib.Algebra.Order.Ring.Rat
import Mathlib.Tactic.Linarith
/-! `scheduleAbsoluteDeadline` of the TypeScript runtime. A timer of Node holds at most 2147483647
milliseconds, so a longer wait is made of several timers. -/
namespace InvariantProtocol.AbsoluteDeadline
open List hiding after

def maxNodeTimerDelayMs : ℚ:=2147483647

inductive Event where
 | armed (delay:ℚ)
 | expired (at_:ℚ)
 | cleaned

/-- The variables of the closure, with the clock, the timers that may still fire and what was done. -/
structure Session where
 now : ℚ
 active : Bool:=true
 timer : Option ℕ:=none
 outstanding : List ℕ:=[]
 nextTimer : ℕ:=0
 log : List Event:=[]

variable (deadlineAt:ℚ)
def schedule (s:Session) : Session :=
 if s.active=false then s
 else
  let remaining:=deadlineAt-s.now
  if ¬0<remaining then
   { s with active:=false,log:=s.log++[.expired s.now] }
  else
   { s with
     timer:=some s.nextTimer
     outstanding:=s.outstanding++[s.nextTimer]
     nextTimer:=s.nextTimer+1
     log:=s.log++[.armed (min remaining maxNodeTimerDelayMs)] }

def cleanup (s:Session) : Session :=
 { s with
   active:=false
   outstanding:=match s.timer with
    | some timer=>s.outstanding.filter (· ≠ timer)
    | none=>s.outstanding
   log:=s.log++[.cleaned] }

def scheduleAbsoluteDeadline (deadlineAt:Option ℚ) (now:ℚ) : Session :=
 match deadlineAt with
 | none=>{ now,active:=false }
 | some deadlineAt=>schedule deadlineAt { now }

/-- What can happen next: time passes, a timer fires, or the caller cleans up. -/
inductive Step : Session → Session → Prop where
 | tick {s:Session} {t:ℚ} (h:s.now≤t) : Step s { s with now:=t }
 | fire {s:Session} {timer:ℕ} (h:timer∈s.outstanding) :
  Step s (schedule deadlineAt { s with outstanding:=s.outstanding.filter (· ≠ timer) })
 | cleanup {s:Session} : Step s (cleanup s)

inductive Reachable : Session → Prop where
 | start (now:ℚ) : Reachable (scheduleAbsoluteDeadline (some deadlineAt) now)
 | step {s s':Session} (h:Reachable s) (hs:Step deadlineAt s s') : Reachable s'

def Event.closes : Event → Bool
 | .armed _=>false
 | .expired _=>true
 | .cleaned=>true

def Event.Sound : Event → Prop
 | .armed delay=>0<delay ∧ delay ≤ maxNodeTimerDelayMs
 | .expired at_=>deadlineAt≤at_
 | .cleaned=>True

/-- No expiry follows an event that closes the session. -/
def Event.Before (e e':Event) : Prop:=e.closes=true → ∀at_,e'≠.expired at_

structure Invariant (s:Session) : Prop where
 sound : ∀e∈s.log,e.Sound deadlineAt
 ordered : s.log.Pairwise Event.Before
 closed : (∃e∈s.log,e.closes=true) → s.active=false
 -- a timer that may fire is the one the closure remembers
 latest : ∀timer∈s.outstanding,s.timer=some timer
 single : s.outstanding.length≤1

variable {deadlineAt} {s:Session}
lemma pairwise_snoc {log:List Event} {e:Event} (h:log.Pairwise Event.Before)
 (he:∀e'∈log,e'.Before e) : (log++[e]).Pairwise Event.Before :=
 List.pairwise_append.2 ⟨h,pairwise_singleton _ _,fun e' he' e'' he'' => by
  obtain rfl:=List.mem_singleton.1 he''
  exact he e' he'⟩

/-- `schedule` runs with no timer outstanding: at the start, or when one has just fired. -/
theorem Invariant.scheduled (h:Invariant deadlineAt s) (hi:s.outstanding=[]) :
 Invariant deadlineAt (schedule deadlineAt s) := by
 unfold schedule
 dsimp only
 split_ifs with ha hr
 · exact h
 · refine ⟨?_,pairwise_snoc h.ordered fun e he _ _=>by simp,?_,?_,?_⟩
   · rw [forall_mem_append,forall_mem_singleton]
     refine ⟨h.sound,lt_min hr (by norm_num [maxNodeTimerDelayMs]),min_le_right _ _⟩
   · rintro ⟨e,he,hc⟩
     obtain he|he:=List.mem_append.1 he
     · exact h.closed ⟨e,he,hc⟩
     · obtain rfl:=List.mem_singleton.1 he
       simp [Event.closes] at hc
   · simp [hi]
   · simp [hi]
 · have ho:∀e∈s.log,e.closes=false:=by
    intro e he
    by_contra hc
    exact ha (h.closed ⟨e,he,by simpa using hc⟩)
   refine ⟨?_,pairwise_snoc h.ordered fun e he hc=>?_,fun _=>rfl,h.latest,h.single⟩
   · rw [forall_mem_append,forall_mem_singleton]
     exact ⟨h.sound,by simpa [Event.Sound] using hr⟩
   · simp [ho e he] at hc

lemma Invariant.cleaned (h:Invariant deadlineAt s) : Invariant deadlineAt (cleanup s) := by
 refine ⟨?_,pairwise_snoc h.ordered fun e he _ _=>by simp,fun _=>rfl,?_,?_⟩
 · unfold cleanup
   rw [forall_mem_append,forall_mem_singleton]
   exact ⟨h.sound,trivial⟩
 · intro timer ht
   unfold cleanup at ht ⊢
   dsimp only at ht ⊢
   split at ht
   · exact h.latest timer (List.mem_filter.1 ht).1
   · exact h.latest timer ht
 · unfold cleanup
   dsimp only
   split
   · exact (length_filter_le _ _).trans h.single
   · exact h.single

lemma Invariant.step {s':Session} (h:Invariant deadlineAt s) (hs:Step deadlineAt s s') :
 Invariant deadlineAt s' := by
 cases hs with
 | tick _=>exact ⟨h.sound,h.ordered,h.closed,h.latest,h.single⟩
 | @fire timer ht=>
  have hi:s.outstanding.filter (· ≠ timer)=[]:=by
   rw [filter_eq_nil_iff]
   intro other ho
   have hsm:some other=some timer:=(h.latest other ho).symm.trans (h.latest timer ht)
   simpa using hsm
  refine Invariant.scheduled ⟨h.sound,h.ordered,h.closed,?_,?_⟩ hi <;> rw [hi] <;> simp
 | cleanup=>exact h.cleaned

lemma Reachable.invariant (h:Reachable deadlineAt s) : Invariant deadlineAt s := by
 induction h with
 | start now=>exact Invariant.scheduled ⟨by simp,.nil,by simp,by simp,by simp⟩ rfl
 | step _ hs ih=>exact ih.step hs

/-- In every run: at most one expiry, not before the deadline and none after a cleanup; timers with
  delays that Node holds, and at most one of them at a time. -/
theorem deadline_fires_once (h:Reachable deadlineAt s) :
  (s.log.filter fun e=>e matches .expired _).length≤1 ∧
   (∀at_,.expired at_∈s.log → deadlineAt≤at_) ∧
   (∀before after,s.log=before++.cleaned::after → ∀at_,.expired at_∉after) ∧
   (∀delay,.armed delay∈s.log → 0<delay ∧ delay≤2147483647) ∧
   s.outstanding.length≤1 := by
 have hi:=h.invariant
 refine ⟨?_,fun at_ hat=>hi.sound _ hat,fun before after hl at_ hat=>?_,
  fun delay hd=>hi.sound _ hd,hi.single⟩
 · have hp:(s.log.filter fun e=>e matches .expired _).Pairwise Event.Before :=
    hi.ordered.sublist filter_sublist
   have hex:∀e∈s.log.filter fun e=>e matches .expired _,∃at_,e=.expired at_ := by
    intro e he
    cases e <;> simp at he ⊢
   generalize (s.log.filter fun e=>e matches .expired _)=expiries at hp hex
   match expiries with
   | []=>simp
   | [_]=>simp
   | e::e'::_=>
    obtain ⟨at_,rfl⟩:=hex e mem_cons_self
    obtain ⟨at',rfl⟩:=hex e' (mem_cons_of_mem _ mem_cons_self)
    exact absurd rfl ((List.pairwise_cons.1 hp).1 _ mem_cons_self rfl at')
 · have ho:=hi.ordered
   rw [hl,pairwise_append,pairwise_cons] at ho
   exact ho.2.1.1 _ hat rfl at_ rfl

theorem short_wait_fires_once : ∃s,Reachable 5 s ∧ s.log=[.armed 5,.expired 5] ∧
  (s.log.filter fun e=>e matches .expired _).length≤1 := by
 have hs:Reachable 5
   { now:=0,timer:=some 0,outstanding:=[0],nextTimer:=1,log:=[.armed 5] } := by
  have h:Reachable 5 (scheduleAbsoluteDeadline (some 5) 0):=.start 0
  norm_num [scheduleAbsoluteDeadline,schedule,maxNodeTimerDelayMs] at h
  exact h
 have hf:=(hs.step (.tick (t := 5) (by norm_num))).step (.fire (mem_singleton_self 0))
 exact ⟨_,hf,by norm_num [schedule],(deadline_fires_once hf).1⟩

/-- A session that is open has a timer, and what closes it is in the log. -/
structure Waiting (s:Session) : Prop where
 timer : s.active=true → s.outstanding≠[]
 closed : s.active=false → ∃e∈s.log,e.closes=true

lemma Waiting.scheduled (h:s.active=false → ∃e∈s.log,e.closes=true) : Waiting (schedule deadlineAt s) := by
 unfold schedule
 dsimp only
 split_ifs with ha hr
 · exact ⟨fun hac=>by simp [ha] at hac,h⟩
 · exact ⟨fun _=>by simp,fun hac=>absurd hac ha⟩
 · exact ⟨fun hac=>by simp at hac,fun _=>⟨_,mem_append_right _ (mem_singleton_self _),rfl⟩⟩

lemma Reachable.waiting (h:Reachable deadlineAt s) : Waiting s := by
 induction h with
 | start now=>exact Waiting.scheduled (by simp)
 | step _ hs ih=>
  cases hs with
  | tick _=>exact ⟨ih.timer,ih.closed⟩
  | fire _=>exact Waiting.scheduled ih.closed
  | cleanup=>exact ⟨fun hac=>by simp [cleanup] at hac,
    fun _=>⟨_,mem_append_right _ (mem_singleton_self _),rfl⟩⟩

/-- No deadline is lost: until it has expired or been cleaned up, a session has one timer, and if that
  fires when the deadline has come, it expires then. -/
theorem deadline_never_lost (h:Reachable deadlineAt s) (ho:∀e∈s.log,e.closes=false) :
 ∃timer,s.outstanding=[timer] ∧ ∀t,s.now≤t → deadlineAt≤t → ∃s',Step deadlineAt { s with now:=t } s' ∧
  s'.log=s.log++[.expired t] := by
 have ha:s.active=true:=by
  by_contra hn
  obtain ⟨e,he,hc⟩:=h.waiting.closed (by simpa using hn)
  rw [ho e he] at hc
  cases hc
 obtain ⟨timer,ht⟩:=length_eq_one_iff.1 (Nat.le_antisymm h.invariant.single
  (length_pos_iff.2 (h.waiting.timer ha)))
 refine ⟨timer,ht,fun t _ hd=>⟨_,@Step.fire _ _ timer (by simp [ht]),?_⟩⟩
 simp [schedule,ha,not_lt.2 hd]

/-- The first timer of a long wait has fired and the second is armed. -/
def rearmed : Session where
 now:=2147483647
 timer:=some 1
 outstanding:=[1]
 nextTimer:=2
 log:=[.armed 2147483647,.armed 852516353]

theorem long_wait_not_lost : Reachable 3000000000 rearmed ∧
  ∃timer,rearmed.outstanding=[timer] ∧ ∀t,rearmed.now≤t → 3000000000≤t →
   ∃s',Step 3000000000 { rearmed with now:=t } s' ∧ s'.log=rearmed.log++[.expired t] := by
 have hs:=(.start 0 : Reachable 3000000000 _)
 norm_num [scheduleAbsoluteDeadline,schedule,maxNodeTimerDelayMs] at hs
 have hf:=(hs.step (.tick (t := 2147483647) (by norm_num))).step (.fire (mem_singleton_self 0))
 norm_num [schedule,maxNodeTimerDelayMs] at hf
 exact ⟨hf,deadline_never_lost hf (by decide)⟩
end InvariantProtocol.AbsoluteDeadline
