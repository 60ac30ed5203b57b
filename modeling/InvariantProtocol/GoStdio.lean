import InvariantProtocol.GoMessages
import Mathlib.Logic.Function.Basic
/-! The stdio session of the Go runtime: a reader, and a task for each `tools/call`, whose steps
interleave freely. The parent context is never done, and responses can be encoded. -/
namespace InvariantProtocol.GoStdio
open JsonValue GoMessages
open List hiding after

variable {i:ℕ} {key:Text} {Result:Type}
inductive Line where
 | empty
 | data (document:Except Text Value)

inductive Effect (Result:Type) where
 | none
 | reply (response:Response Result)
 | cancel (key:Text)
 | call (key:Text) (id:Value)

/-- The key of the request a notification cancels; `requestId` is matched in any case. -/
def cancelledKey : Option Value → Option Text
 | some (.object fields)=>(rawField fields (text "requestid")).bind mcpIDKey
 | _=>none

def handleNotification (req:Request) : Effect Result :=
 if req.method=text "notifications/cancelled" then
  match cancelledKey req.params with
  | some key=>.cancel key
  | none=>.none
 else .none

def requestEffect (server:Server Result) (req:Request) : Effect Result :=
 match req.id with
 | none=>handleNotification req
 | some id=>
  if req.method=text "tools/call" then
   match mcpIDKey id with
   | some key=>.call key id
   | none=>.reply (mcpErr none (-32600) (text "Invalid Request"))
  else match mcpDispatch server req with
   | some response=>.reply response
   | none=>.none

def lineEffect (server:Server Result) : Line → Effect Result
 | .empty=>.none
 | .data document=>
  match parseMCPJSONRPC document with
  | .protocolError response=>.reply response
  | .clientResponse=>.none
  | .request req=>requestEffect server req

/-- A task runs its tool, then reads the flag and removes its entry at once, and then writes. -/
inductive Stage (Result:Type) where
 | running
 | deciding (canceled:Bool) (response:Response Result)
 | finished

structure Call (Result:Type) where
 key : Text
 id : Value
 canceled : Bool:=false
 stage : Stage Result:=.running

/-- A call is known by the number of its line, also to the table of calls in flight. Responses are
  tagged with the line they answer. -/
structure State (Result:Type) where
 unread : List Line
 next : ℕ:=0
 inflight : Text → Option ℕ:=fun _=>none
 calls : ℕ → Option (Call Result):=fun _=>none
 written : List (ℕ×Response Result):=[]
 returned : Bool:=false

def setStage (s:State Result) (i:ℕ) (call:Call Result) (stage:Stage Result) : State Result :=
 { s with calls:=Function.update s.calls i (some { call with stage }) }

def cancelCall (s:State Result) (key:Text) : State Result :=
 match s.inflight key with
 | some i=>{ s with
   calls:=Function.update s.calls i ((s.calls i).map fun call=>{ call with canceled:=true }) }
 | none=>s

def readLine (s:State Result) (rest:List Line) : Effect Result → State Result
 | .none=>{ s with unread:=rest,next:=s.next+1 }
 | .reply response=>
  { s with unread:=rest,next:=s.next+1,written:=s.written++[(s.next,response)] }
 | .cancel key=>{ cancelCall s key with unread:=rest,next:=s.next+1 }
 | .call key id=>
  { s with
    unread:=rest
    next:=s.next+1
    inflight:=Function.update s.inflight key (some s.next)
    calls:=Function.update s.calls s.next (some { key,id }) }

inductive Event where
 | read (i:ℕ) (line:Line)
 | remove (i:ℕ)
 | write (i:ℕ)
 | drop (i:ℕ)
 | finish

inductive Step (server:Server Result) : State Result → Event → State Result → Prop where
 | read {s:State Result} {line:Line} {rest:List Line} (hline:s.unread=line::rest) :
   Step server s (.read s.next line) (readLine s rest (lineEffect server line))
 | remove {s:State Result} {i:ℕ} {call:Call Result} {response:Response Result}
   (hcall:s.calls i=some call) (hstage:call.stage=.running)
   (hresponse:response.id=call.id) :
   Step server s (.remove i)
    { setStage s i call (.deciding call.canceled response) with
      inflight:=Function.update s.inflight call.key none }
 | write {s:State Result} {i:ℕ} {call:Call Result} {response:Response Result}
   (hcall:s.calls i=some call) (hstage:call.stage=.deciding false response) :
   Step server s (.write i)
    { setStage s i call .finished with written:=s.written++[(i,response)] }
 | drop {s:State Result} {i:ℕ} {call:Call Result} {response:Response Result}
   (hcall:s.calls i=some call) (hstage:call.stage=.deciding true response) :
   Step server s (.drop i) (setStage s i call .finished)
 | finish {s:State Result} (hend:s.unread=[])
   (hdone:∀i call,s.calls i=some call → call.stage=.finished) :
   Step server s .finish { s with returned:=true }

inductive Run (server:Server Result) (s:State Result) : List Event → State Result → Prop where
 | refl : Run server s [] s
 | snoc {trace:List Event} {t u:State Result} {e:Event} (run:Run server s trace t)
   (step:Step server t e u) : Run server s (trace++[e]) u

section

def responses (s:State Result) (i:ℕ) : List (Response Result) :=
 (s.written.filter fun w=>w.1=i).map Prod.snd

def callKey (server:Server Result) (line:Line) : Option Text :=
 match lineEffect server line with
 | .call key _=>some key
 | _=>none

def DistinctKeys (server:Server Result) (input:List Line) : Prop :=
 ∀(i j:ℕ) (key:Text),input[i]?.bind (callKey server)=some key →
  input[j]?.bind (callKey server)=some key → i=j

/-- A cancellation under this key is processed after the call of line `i` is registered and before
  its entry is removed. -/
def CancelledInFlight (server:Server Result) (trace:List Event) (i:ℕ) (key:Text) : Prop :=
 ∃before j line after,trace=before ++ .read j line::after ∧
  lineEffect server line=.cancel key ∧ (∃l,.read i l∈before) ∧ .remove i∉before

variable {server:Server Result} {trace:List Event} {e:Event}
lemma cancelledInFlight_snoc (i:ℕ) (key:Text) :
 CancelledInFlight server (trace++[e]) i key ↔ CancelledInFlight server trace i key ∨
  ∃j line,e=.read j line ∧ lineEffect server line=.cancel key ∧ (∃l,.read i l∈trace) ∧
   .remove i∉trace := by
 constructor
 · rintro ⟨before,j,line,after,ht,hc,hrd,hr⟩
   rcases eq_nil_or_concat after with rfl|⟨after,e',rfl⟩
   · obtain ⟨rfl,he⟩:=append_inj' ht rfl
     exact .inr ⟨j,line,List.singleton_inj.1 he,hc,hrd,hr⟩
   · rw [concat_eq_append,←cons_append,←append_assoc] at ht
     obtain ⟨rfl,-⟩:=append_inj' ht rfl
     exact .inl ⟨before,j,line,after,rfl,hc,hrd,hr⟩
 · rintro (⟨before,j,line,after,rfl,hc,hrd,hr⟩ |
    ⟨j,line,rfl,hc,hrd,hr⟩)
   · exact ⟨before,j,line,after++[e],by simp,hc,hrd,hr⟩
   · exact ⟨trace,j,line,[],rfl,hc,hrd,hr⟩

/-- Only the reading of a cancellation, under the call's own key, cancels a call. -/
theorem cancelledInFlight_of_ne (he:∀j line,e=.read j line → lineEffect server line≠.cancel key) :
 CancelledInFlight server (trace++[e]) i key ↔ CancelledInFlight server trace i key := by
 rw [cancelledInFlight_snoc]
 refine or_iff_left ?_
 rintro ⟨j,line,heq,hc,-⟩
 exact he j line heq hc

lemma cancelledInFlight_of_removed (he:.remove i∈trace) :
 CancelledInFlight server (trace++[e]) i key ↔ CancelledInFlight server trace i key := by
 rw [cancelledInFlight_snoc]
 refine or_iff_left ?_
 rintro ⟨j,line,-,-,-,hr⟩
 exact hr he

lemma responses_snoc (s:State Result) (i j:ℕ) (r:Response Result) :
 ((s.written++[(j,r)]).filter fun w=>w.1=i).map Prod.snd =
  responses s i++if j=i then [r] else [] := by
 rw [filter_append,map_append]
 congr 1
 by_cases h : j=i <;> simp [h]
end

section
variable (server:Server Result) (trace:List Event)
/-- What is known of a call by its stage: the flag tells whether it was cancelled while in flight,
  and only a finished call has been answered, unless it was cancelled. -/
def CallInv (s:State Result) (i:ℕ) (call:Call Result) : Prop :=
 match call.stage with
 | .running=>(call.canceled=true ↔ CancelledInFlight server trace i call.key) ∧
   .remove i∉trace ∧ s.inflight call.key=some i ∧ responses s i=[]
 | .deciding canceled response=>
   (canceled=true ↔ CancelledInFlight server trace i call.key) ∧ .remove i∈trace ∧
    response.id=call.id ∧ responses s i=[]
 | .finished=>.remove i∈trace ∧
   (CancelledInFlight server trace i call.key → responses s i=[]) ∧
    (¬CancelledInFlight server trace i call.key →
     ∃response,responses s i=[response] ∧ response.id=call.id)

def LineAnswered (s:State Result) (i:ℕ) (line:Line) : Prop :=
 match lineEffect server line with
 | .reply response=>responses s i=[response]
 | .call _ _=>True
 | _=>responses s i=[]

/-- The table of calls has the calls read so far, and the table of keys the running ones. -/
structure Tables (input:List Line) (trace:List Event) (s:State Result) : Prop where
 registered : ∀i line key id,i<s.next → input[i]?=some line →
  lineEffect server line=.call key id → ∃call,s.calls i=some call
 calls : ∀i call,s.calls i=some call → i<s.next ∧
  (∃line,input[i]?=some line ∧ lineEffect server line=.call call.key call.id) ∧
   CallInv server trace s i call
 inflight : ∀key i,s.inflight key=some i →
  ∃call,s.calls i=some call ∧ call.key=key ∧ call.stage=.running

structure Consistent (input:List Line) (trace:List Event) (s:State Result) : Prop extends
  Tables server input trace s where
 next_le : s.next ≤ input.length
 unread : s.unread=input.drop s.next
 reads : ∀i line,.read i line∈trace ↔ i<s.next ∧ input[i]?=some line
 removes : ∀i,.remove i∈trace → i<s.next
 fresh : ∀i,s.next ≤ i → responses s i=[]
 answered : ∀i line,i<s.next → input[i]?=some line → LineAnswered server s i line

variable {server trace}
lemma consistent_initial (input:List Line) :
 Consistent server input [] { unread:=input } where
 next_le:=Nat.zero_le _
 unread:=rfl
 reads i line:=by simp
 removes i h:=by cases h
 fresh i _:=rfl
 answered i line h:=absurd h (Nat.not_lt_zero i)
 registered i line key id h:=absurd h (Nat.not_lt_zero i)
 calls i call h:=by cases h
 inflight key i h:=by cases h

variable {s t:State Result} {i:ℕ}
lemma CallInv.frame {e:Event} {call:Call Result} (h:CallInv server trace s i call) (hrm:e≠.remove i)
 (hc:CancelledInFlight server (trace++[e]) i call.key ↔
  CancelledInFlight server trace i call.key)
 (hi:call.stage=.running → t.inflight call.key=s.inflight call.key)
 (hr:responses t i=responses s i) : CallInv server (trace++[e]) t i call := by
 have hm:Event.remove i∈trace++[e] ↔ .remove i∈trace:=by
  simp [Ne.symm hrm]
 unfold CallInv at h ⊢
 cases hs : call.stage with
 | running=>
  simp only [hs,hm,hc,hr] at h ⊢
  rw [hi hs]
  exact h
 | deciding canceled response=>
  simp only [hs,hm,hc,hr] at h ⊢
  exact h
 | finished=>
  simp only [hs,hm,hc,hr] at h ⊢
  exact h

lemma LineAnswered.congr {line:Line} (h:LineAnswered server s i line)
 (hr:responses t i=responses s i) : LineAnswered server t i line := by
 unfold LineAnswered at h ⊢
 rwa [hr]

lemma readLine_next (s:State Result) (rest:List Line) (effect:Effect Result) :
 (readLine s rest effect).next=s.next+1 := by
 cases effect <;> rfl

lemma readLine_unread (s:State Result) (rest:List Line) (effect:Effect Result) :
 (readLine s rest effect).unread=rest := by
 cases effect <;> rfl

lemma cancelCall_written (s:State Result) (key:Text) : (cancelCall s key).written=s.written := by
 unfold cancelCall
 split <;> rfl

lemma cancelCall_inflight (s:State Result) (key:Text) : (cancelCall s key).inflight=s.inflight := by
 unfold cancelCall
 split <;> rfl

lemma responses_readLine (s:State Result) (rest:List Line) (effect:Effect Result) (i:ℕ) :
 responses (readLine s rest effect) i=responses s i ++
  match effect with
  | .reply response=>if s.next=i then [response] else []
  | _=>[] := by
 cases effect with
 | reply response=>exact responses_snoc s i s.next response
 | cancel key=>
  rw [append_nil]
  unfold responses
  rw [←cancelCall_written s key]
  rfl
 | none=>exact (append_nil _).symm
 | call key id=>exact (append_nil _).symm

lemma responses_readLine_of_ne (s:State Result) (rest:List Line) (effect:Effect Result)
 (h:s.next≠i) : responses (readLine s rest effect) i=responses s i := by
 rw [responses_readLine]
 cases effect <;> simp [h]

section
variable {input:List Line} {s:State Result} {line:Line} {rest:List Line}
 (h:Consistent server input trace s) (hline:s.unread=line::rest)

include h hline

lemma Consistent.next_line : input[s.next]?=some line ∧ rest=input.drop (s.next+1) := by
 have hd:=h.unread.symm.trans hline
 constructor
 · have hh:=congrArg List.head? hd
   rwa [List.head?_drop] at hh
 · have ht:=congrArg List.tail hd
   rw [tail_drop] at ht
   exact ht.symm

lemma Consistent.next_lt : s.next < input.length :=
 (List.getElem?_eq_some_iff.1 (h.next_line hline).1).1

lemma Consistent.read_reads (i:ℕ) (l:Line) :
 .read i l∈trace++[.read s.next line] ↔ i<s.next+1 ∧ input[i]?=some l := by
 rw [mem_append,h.reads,mem_singleton,Event.read.injEq]
 constructor
 · rintro (⟨hlt,hg⟩|⟨rfl,rfl⟩)
   · exact ⟨by omega,hg⟩
   · exact ⟨by omega,(h.next_line hline).1⟩
 · rintro ⟨hlt,hg⟩
   by_cases hi : i=s.next
   · subst hi
     rw [(h.next_line hline).1,Option.some.injEq] at hg
     exact .inr ⟨rfl,hg.symm⟩
   · exact .inl ⟨by omega,hg⟩

lemma Consistent.read_answered (i:ℕ) (l:Line) (hi:i<s.next+1) (hl:input[i]?=some l) :
 LineAnswered server (readLine s rest (lineEffect server line)) i l := by
 by_cases hn : s.next=i
 · subst hn
   rw [(h.next_line hline).1,Option.some.injEq] at hl
   subst hl
   have hr:=responses_readLine s rest (lineEffect server line) s.next
   rw [h.fresh s.next (Nat.le_refl _),nil_append] at hr
   unfold LineAnswered
   cases hef : lineEffect server line with
   | reply response=>simpa [hef] using hr
   | none=>simpa [hef] using hr
   | cancel key=>simpa [hef] using hr
   | call key id=>trivial
 · exact (h.answered i l (by omega) hl).congr (responses_readLine_of_ne _ _ _ hn)

variable {t:State Result}
omit hline in
lemma Consistent.read_frame {call:Call Result} (hc:s.calls i=some call)
 (hef:lineEffect server line≠.cancel call.key)
 (hi:call.stage=.running → t.inflight call.key=s.inflight call.key)
 (hr:responses t i=responses s i) : CallInv server (trace++[.read s.next line]) t i call := by
 refine (h.calls i call hc).2.2.frame (by simp) ?_ hi hr
 apply cancelledInFlight_of_ne
 intro j l heq
 rw [Event.read.injEq] at heq
 rwa [←heq.2]

lemma Consistent.read_other (hn:t.next=s.next+1)
 (hc:t.calls=s.calls) (hin:t.inflight=s.inflight)
 (hr:∀i,s.next≠i → responses t i=responses s i)
 (hcl:∀key id,lineEffect server line≠.call key id)
 (hcn:∀i call,s.calls i=some call → lineEffect server line=.cancel call.key →
  .remove i∈trace) : Tables server input (trace++[.read s.next line]) t where
 registered i l key id hi hl heffect:=by
  rw [hc]
  refine h.registered i l key id ?_ hl heffect
  have hne:i≠s.next:=by
   rintro rfl
   rw [(h.next_line hline).1,Option.some.injEq] at hl
   subst hl
   exact hcl key id heffect
  omega
 calls i call hi:=by
  rw [hc] at hi
  obtain ⟨hlt,hrd,hiv⟩:=h.calls i call hi
  refine ⟨by omega,hrd,?_⟩
  by_cases ho : lineEffect server line=.cancel call.key
  · exact hiv.frame (by simp) (cancelledInFlight_of_removed (hcn i call hi ho))
     (fun _=>by rw [hin]) (hr i (by omega))
  · exact h.read_frame hi ho (fun _=>by rw [hin]) (hr i (by omega))
 inflight key i hi:=by
  rw [hin] at hi
  rw [hc]
  exact h.inflight key i hi

lemma Consistent.read_cancel (hef:lineEffect server line=.cancel key) :
 Tables server input (trace++[.read s.next line]) (readLine s rest (.cancel key)) := by
 have hr:∀i,s.next≠i →
   responses (readLine s rest (.cancel key)) i=responses s i:=
  fun i hi=>responses_readLine_of_ne s rest (.cancel key) hi
 have hky:∀call : Call Result,lineEffect server line=.cancel call.key → call.key=key:=by
  intro call hc
  rw [hef,Effect.cancel.injEq] at hc
  exact hc.symm
 -- A running call has its entry, so a call under this key that is not in the table is past removal.
 have hrm:∀i call,s.calls i=some call → call.key=key → s.inflight key≠some i →
   .remove i∈trace:=by
  intro i call hi hc hot
  have hiv:=(h.calls i call hi).2.2
  unfold CallInv at hiv
  cases hs : call.stage with
  | running=>
   simp only [hs,hc] at hiv
   exact absurd hiv.2.2.1 hot
  | deciding canceled response=>
   simp only [hs] at hiv
   exact hiv.2.1
  | finished=>
   simp only [hs] at hiv
   exact hiv.1
 cases hen : s.inflight key with
 | none=>
  have hsm:cancelCall s key=s:=by simp [cancelCall,hen]
  refine h.read_other hline rfl ?_ ?_ hr (by simp [hef]) ?_
  · simp [readLine,hsm]
  · simp [readLine,hsm]
  · intro i call hi ho
    exact hrm i call hi (hky call ho) (by simp [hen])
 | some j=>
  obtain ⟨callj,hj,hkj,hst⟩:=h.inflight key j hen
  have hcl:(readLine s rest (.cancel key)).calls =
    Function.update s.calls j (some { callj with canceled:=true }):=by
   simp [readLine,cancelCall,hen,hj]
  have hin:(readLine s rest (.cancel key)).inflight=s.inflight:=
   cancelCall_inflight s key
  obtain ⟨hlj,hrd,hi'⟩:=h.calls j callj hj
  refine ⟨?_,?_,?_⟩
  · intro i l k id hi hl hc
    rw [hcl]
    by_cases hij : i=j
    · exact ⟨_,by rw [hij,Function.update_self]⟩
    · rw [Function.update_of_ne hij]
      have hne:i≠s.next:=by
       rintro rfl
       rw [(h.next_line hline).1,Option.some.injEq] at hl
       rw [hl,hc] at hef
       cases hef
      have hlt:i<s.next+1:=hi
      exact h.registered i l k id (by omega) hl hc
  · intro i call hi
    rw [hcl] at hi
    show i<s.next+1 ∧ _
    by_cases hij : i=j
    · subst hij
      rw [Function.update_self,Option.some.injEq] at hi
      subst hi
      refine ⟨by omega,hrd,?_⟩
      obtain ⟨l,hl,-⟩:=hrd
      unfold CallInv at hi' ⊢
      simp only [hst] at hi' ⊢
      obtain ⟨-,hrv,het,hn⟩:=hi'
      refine ⟨iff_of_true trivial ?_,?_,?_,?_⟩
      · rw [cancelledInFlight_snoc,hkj]
        exact .inr ⟨s.next,line,rfl,hef,⟨l,(h.reads i l).2 ⟨hlj,hl⟩⟩,hrv⟩
      · simpa using hrv
      · rw [hin]
        exact het
      · rw [hr i (by omega),hn]
    · rw [Function.update_of_ne hij] at hi
      obtain ⟨hlt,hre,hiv⟩:=h.calls i call hi
      refine ⟨by omega,hre,?_⟩
      by_cases ho : call.key=key
      · have hm:=hrm i call hi ho (by simp [hen,Ne.symm hij])
        exact hiv.frame (by simp) (cancelledInFlight_of_removed hm)
         (fun _=>by rw [hin]) (hr i (by omega))
      · refine h.read_frame hi ?_ (fun _=>by rw [hin]) (hr i (by omega))
        exact fun hc=>ho (hky call hc)
  · intro k i hi
    rw [hin] at hi
    obtain ⟨call,hc,hk,hs⟩:=h.inflight k i hi
    rw [hcl]
    by_cases hij : i=j
    · subst hij
      rw [hj,Option.some.injEq] at hc
      subst hc
      exact ⟨_,Function.update_self ..,hk,hs⟩
    · exact ⟨call,by rw [Function.update_of_ne hij,hc],hk,hs⟩

lemma Consistent.read_call (hky:DistinctKeys server input) {id:Value}
 (hef:lineEffect server line=.call key id) :
 Tables server input (trace++[.read s.next line]) (readLine s rest (.call key id)) := by
 have hl':=(h.next_line hline).1
 have hcl:(readLine s rest (.call key id)).calls =
   Function.update s.calls s.next (some { key,id }):=rfl
 have hif:(readLine s rest (.call key id)).inflight =
   Function.update s.inflight key (some s.next):=rfl
 have hr:∀i,responses (readLine s rest (.call key id)) i=responses s i:=by
  intro i
  rw [responses_readLine]
  exact append_nil _
 have ho:∀i call,s.calls i=some call → call.key≠key:=by
  intro i call hi how
  obtain ⟨hlt,⟨l,hl,hc⟩,-⟩:=h.calls i call hi
  have heq:=hky i s.next key (by simp [hl,callKey,hc,how])
   (by simp [hl',callKey,hef])
  omega
 refine ⟨?_,?_,?_⟩
 · intro i l k id' hi hl hc
   by_cases hin : i=s.next
   · exact ⟨_,by rw [hin];exact Function.update_self ..⟩
   · obtain ⟨call,hs⟩:=h.registered i l k id' (by have:i<s.next+1:=hi;omega) hl hc
     exact ⟨call,(Function.update_of_ne hin ..).trans hs⟩
 · intro i call hi
   show i<s.next+1 ∧ _
   by_cases hin : i=s.next
   · subst hin
     rw [hcl,Function.update_self,Option.some.injEq] at hi
     subst hi
     refine ⟨by omega,⟨line,hl',hef⟩,?_,?_,?_,?_⟩
     · refine iff_of_false (by simp) ?_
       rw [cancelledInFlight_of_ne]
       · rintro ⟨before,j,l,after,ht,-,⟨l',hm⟩,-⟩
         have hrd:.read s.next l'∈trace:=by
          rw [ht]
          exact mem_append_left _ hm
         have:=((h.reads s.next l').1 hrd).1
         omega
       · intro j l heq
         rw [Event.read.injEq] at heq
         rw [←heq.2,hef]
         simp
     · have hn:.remove s.next∉trace:=fun hm=>by
        have:=h.removes s.next hm
        omega
       simpa using hn
     · exact Function.update_self ..
     · rw [hr,h.fresh s.next (Nat.le_refl _)]
   · rw [hcl,Function.update_of_ne hin] at hi
     obtain ⟨hlt,hrd,-⟩:=h.calls i call hi
     refine ⟨by omega,hrd,h.read_frame hi (by simp [hef]) (fun _=>?_) (hr i)⟩
     rw [hif,Function.update_of_ne (ho i call hi)]
 · intro k i hi
   by_cases hk : k=key
   · subst hk
     rw [hif,Function.update_self,Option.some.injEq] at hi
     subst hi
     exact ⟨_,Function.update_self ..,rfl,rfl⟩
   · rw [hif,Function.update_of_ne hk] at hi
     obtain ⟨call,hc,hke,hst⟩:=h.inflight k i hi
     have hin:i≠s.next:=by
      have:=(h.calls i call hc).1
      omega
     exact ⟨call,(Function.update_of_ne hin ..).trans hc,hke,hst⟩

lemma Consistent.read_tables (hk:DistinctKeys server input) :
 Tables server input (trace++[.read s.next line]) (readLine s rest (lineEffect server line)) := by
 have hne:=fun i (hi:s.next≠i)=>
  responses_readLine_of_ne s rest (lineEffect server line) hi
 cases hef : lineEffect server line with
 | none=>
  rw [hef] at hne
  exact h.read_other hline rfl rfl rfl hne (by simp [hef]) (by simp [hef])
 | reply response=>
  rw [hef] at hne
  exact h.read_other hline rfl rfl rfl hne (by simp [hef]) (by simp [hef])
 | cancel key=>exact h.read_cancel hline hef
 | call key id=>exact h.read_call hline hk hef

lemma Consistent.read_step (hk:DistinctKeys server input) :
 Consistent server input (trace++[.read s.next line])
  (readLine s rest (lineEffect server line)) where
 toTables:=h.read_tables hline hk
 next_le:=by
  rw [readLine_next]
  exact h.next_lt hline
 unread:=by
  rw [readLine_unread,readLine_next]
  exact (h.next_line hline).2
 reads i l:=by
  rw [readLine_next]
  exact h.read_reads hline i l
 removes i hi:=by
  rw [readLine_next]
  have hm:.remove i∈trace:=by simpa using hi
  have:=h.removes i hm
  omega
 fresh i hi:=by
  rw [readLine_next] at hi
  rw [responses_readLine_of_ne _ _ _ (by omega)]
  exact h.fresh i (by omega)
 answered i l hi hl:=by
  rw [readLine_next] at hi
  exact h.read_answered hline i l hi hl
end

section
variable {input:List Line} {s t:State Result} {e:Event} {i:ℕ} {call:Call Result}
lemma Consistent.task_step (h:Consistent server input trace s) (call':Call Result)
 (hca:s.calls i=some call) (hky:call'.key=call.key) (hid:call'.id=call.id)
 (hev:e=.remove i ∨ e=.write i ∨ e=.drop i) (hn:t.next=s.next)
 (hu:t.unread=s.unread) (hc:t.calls=Function.update s.calls i (some call'))
 (hr:∀j,j≠i → responses t j=responses s j) (hiv:CallInv server (trace++[e]) t i call')
 (hi:∀key j,t.inflight key=some j ↔ j≠i ∧ s.inflight key=some j) :
 Consistent server input (trace++[e]) t := by
 obtain ⟨hlt,hrd,-⟩:=h.calls i call hca
 have hnt:∀j l,e≠.read j l:=by
  intro j l
  rcases hev with rfl|rfl|rfl <;> simp
 refine ⟨⟨?_,?_,?_⟩,?_,?_,?_,?_,?_,?_⟩
 · intro j l key id hj hl hef
   rw [hn] at hj
   rw [hc]
   by_cases hji : j=i
   · exact ⟨call',by rw [hji,Function.update_self]⟩
   · rw [Function.update_of_ne hji]
     exact h.registered j l key id hj hl hef
 · intro j callj hj
   rw [hn]
   rw [hc] at hj
   by_cases hji : j=i
   · subst hji
     rw [Function.update_self,Option.some.injEq] at hj
     subst hj
     rw [hky,hid]
     exact ⟨hlt,hrd,hiv⟩
   · rw [Function.update_of_ne hji] at hj
     obtain ⟨hlj,hrj,hin⟩:=h.calls j callj hj
     refine ⟨hlj,hrj,hin.frame ?_ ?_ ?_ (hr j hji)⟩
     · rcases hev with rfl|rfl|rfl <;> simp [Ne.symm hji]
     · exact cancelledInFlight_of_ne fun k l heq=>absurd heq (hnt k l)
     · intro hst
       unfold CallInv at hin
       simp only [hst] at hin
       rw [hin.2.2.1,hi]
       exact ⟨hji,hin.2.2.1⟩
 · intro key j hj
   obtain ⟨hji,hj⟩:=(hi key j).1 hj
   obtain ⟨callj,hcl,hk,hs⟩:=h.inflight key j hj
   exact ⟨callj,by rw [hc,Function.update_of_ne hji,hcl],hk,hs⟩
 · rw [hn]
   exact h.next_le
 · rw [hu,hn]
   exact h.unread
 · intro j l
   rw [hn,←h.reads,mem_append,mem_singleton]
   exact or_iff_left fun heq=>hnt j l heq.symm
 · intro j hj
   rw [hn]
   rw [mem_append,mem_singleton] at hj
   rcases hj with hj|hj
   · exact h.removes j hj
   · rcases hev with rfl|rfl|rfl
     · rw [Event.remove.injEq] at hj
       rwa [hj]
     · cases hj
     · cases hj
 · intro j hj
   rw [hn] at hj
   rw [hr j (by omega)]
   exact h.fresh j hj
 · intro j l hj hl
   rw [hn] at hj
   by_cases hji : j=i
   · subst hji
     obtain ⟨l',hl',hef⟩:=hrd
     rw [hl,Option.some.injEq] at hl'
     unfold LineAnswered
     rw [hl',hef]
     trivial
   · exact (h.answered j l hj hl).congr (hr j hji)

lemma Consistent.not_inflight (h:Consistent server input trace s) (hcl:s.calls i=some call)
 (hs:call.stage≠.running) (key:Text) (j:ℕ) : s.inflight key=some j ↔ j≠i ∧ s.inflight key=some j := by
 refine (and_iff_right_of_imp fun hj=>?_).symm
 rintro rfl
 obtain ⟨callj,hc,-,hr⟩:=h.inflight key j hj
 rw [hcl,Option.some.injEq] at hc
 subst hc
 exact hs hr

variable {response:Response Result}
section
variable (h:Consistent server input trace s)
include h
lemma Consistent.remove_step (hc:s.calls i=some call)
 (hs:call.stage=.running) (hr:response.id=call.id) :
 Consistent server input (trace++[.remove i])
  { setStage s i call (.deciding call.canceled response) with
    inflight:=Function.update s.inflight call.key none } := by
 have hi:=(h.calls i call hc).2.2
 unfold CallInv at hi
 simp only [hs] at hi
 obtain ⟨hf,-,hen,hn⟩:=hi
 refine h.task_step { call with stage:=.deciding call.canceled response } hc rfl rfl (.inl rfl)
  rfl rfl rfl (fun j _=>rfl) ?_ ?_
 · refine ⟨?_,by simp,hr,hn⟩
   rw [cancelledInFlight_of_ne (by simp)]
   exact hf
 · intro key j
   by_cases hk : key=call.key
   · subst hk
     simp only [Function.update_self,hen,reduceCtorEq,Option.some.injEq,false_iff,not_and]
     exact fun hji hij=>hji hij.symm
   · simp only [Function.update_of_ne hk]
     refine (and_iff_right_of_imp fun hj=>?_).symm
     rintro rfl
     obtain ⟨callj,hcl,hky,-⟩:=h.inflight key j hj
     rw [hc,Option.some.injEq] at hcl
     subst hcl
     exact hk hky.symm

lemma Consistent.write_step (hcl:s.calls i=some call)
 (hs:call.stage=.deciding false response) :
 Consistent server input (trace++[.write i])
  { setStage s i call .finished with written:=s.written++[(i,response)] } := by
 have hi:=(h.calls i call hcl).2.2
 unfold CallInv at hi
 simp only [hs] at hi
 obtain ⟨hf,hrm,hr,hn⟩:=hi
 have hrn:call.stage≠.running:=by simp [hs]
 refine h.task_step { call with stage:=.finished } hcl rfl rfl (.inr (.inl rfl)) rfl rfl rfl ?_ ?_
  (h.not_inflight hcl hrn)
 · intro j hji
   exact (responses_snoc s j i response).trans (by simp [Ne.symm hji])
 · refine ⟨mem_append_left _ hrm,?_,fun _=>⟨response,?_,hr⟩⟩
   · rw [cancelledInFlight_of_ne (by simp)]
     intro hc
     exact absurd (hf.2 hc) (by simp)
   · exact (responses_snoc s i i response).trans (by simp [hn])

lemma Consistent.drop_step (hc:s.calls i=some call)
 (hs:call.stage=.deciding true response) :
 Consistent server input (trace++[.drop i]) (setStage s i call .finished) := by
 have hi:=(h.calls i call hc).2.2
 unfold CallInv at hi
 simp only [hs] at hi
 obtain ⟨hf,hrm,-,hn⟩:=hi
 have hr:call.stage≠.running:=by simp [hs]
 refine h.task_step { call with stage:=.finished } hc rfl rfl (.inr (.inr rfl)) rfl rfl rfl
  (fun j _=>rfl) ?_ (h.not_inflight hc hr)
 refine ⟨mem_append_left _ hrm,fun _=>hn,fun hnt=>absurd ?_ hnt⟩
 rw [cancelledInFlight_of_ne (by simp)]
 exact hf.1 trivial

lemma Consistent.finish_step :
 Consistent server input (trace++[.finish]) { s with returned:=true } where
 registered:=h.registered
 calls j callj hj:=by
  obtain ⟨hlt,hr,hi⟩:=h.calls j callj hj
  refine ⟨hlt,hr,hi.frame (by simp) (cancelledInFlight_of_ne (by simp)) (fun _=>rfl) rfl⟩
 inflight:=h.inflight
 next_le:=h.next_le
 unread:=h.unread
 reads j l:=by simpa using h.reads j l
 removes j hj:=h.removes j (by simpa using hj)
 fresh:=h.fresh
 answered:=h.answered
end
end

variable {input:List Line}
lemma Consistent.step {e:Event} (hk:DistinctKeys server input)
 (h:Consistent server input trace s) (hst:Step server s e t) : Consistent server input (trace++[e]) t := by
 cases hst with
 | read hline=>exact h.read_step hline hk
 | remove hc hs hr=>exact h.remove_step hc hs hr
 | write hc hs=>exact h.write_step hc hs
 | drop hc hs=>exact h.drop_step hc hs
 | finish hen hd=>exact h.finish_step

lemma consistent_run (hk:DistinctKeys server input) (hr:Run server { unread:=input } trace s) :
 Consistent server input trace s := by
 induction hr with
 | refl=>exact consistent_initial input
 | snoc _ hs ih=>exact ih.step hk hs
end

variable {server:Server Result} {trace:List Event} {input:List Line} {s:State Result}
lemma returned_settled (hrn:Run server { unread:=input } trace s) (h:s.returned=true) :
 s.unread=[] ∧ ∀i call,s.calls i=some call → call.stage=.finished := by
 induction hrn with
 | refl=>cases h
 | @snoc trace t u e _ hst ih=>
  cases hst with
  | @read line rest hline=>
   have hr:t.returned=true:=by
    rw [←h]
    unfold readLine cancelCall
    split <;> try split
    all_goals rfl
   rw [hline] at ih
   exact absurd (ih hr).1 (by simp)
  | remove hc hs _=>
   have hd:=(ih h).2 _ _ hc
   rw [hs] at hd
   cases hd
  | write hc hs=>
   have hd:=(ih h).2 _ _ hc
   rw [hs] at hd
   cases hd
  | drop hc hs=>
   have hd:=(ih h).2 _ _ hc
   rw [hs] at hd
   cases hd
  | finish hen hd=>exact ⟨hen,hd⟩

lemma Consistent.next_eq (h:Consistent server input trace s) (hen:s.unread=[]) : s.next=input.length := by
 have hd:=h.unread.symm.trans hen
 have hle:=List.drop_eq_nil_iff.1 hd
 have:=h.next_le
 omega

/-- A call has no response before its task is done, and none at all if it was cancelled while in
  flight; otherwise it then has one, under its own id. -/
theorem CallInv.responses {call:Call Result} (h:CallInv server trace s i call) :
 (CancelledInFlight server trace i call.key → responses s i=[]) ∧
  (responses s i=[] ∨ ∃r,responses s i=[r] ∧ r.id=call.id) ∧
  (¬CancelledInFlight server trace i call.key → call.stage=.finished →
   ∃r,responses s i=[r] ∧ r.id=call.id) := by
 unfold CallInv at h
 cases hs : call.stage with
 | running=>
  simp only [hs] at h
  exact ⟨fun _=>h.2.2.2,.inl h.2.2.2,fun _ hf=>by cases hf⟩
 | deciding canceled response=>
  simp only [hs] at h
  exact ⟨fun _=>h.2.2.2,.inl h.2.2.2,fun _ hf=>by cases hf⟩
 | finished=>
  simp only [hs] at h
  refine ⟨h.2.1,?_,fun hn _=>h.2.2 hn⟩
  by_cases hc : CancelledInFlight server trace i call.key
  · exact .inl (h.2.1 hc)
  · exact .inr (h.2.2 hc)

/-- In every run of the session whose calls have different keys: a call that is cancelled by its
  own id while in flight is never answered, every other call is answered at most once and, by
  the time the session returns, exactly once. A request that starts no call is answered by the
  reader, and other lines are not answered. When the session returns, every call is finished. -/
theorem calls_answered_once (hkeys:DistinctKeys server input)
  (hrun:Run server { unread:=input } trace s) :
  (∀(i:ℕ) (line:Line),input[i]?=some line →
   match lineEffect server line with
   | .call key id=>
    (CancelledInFlight server trace i key → responses s i=[]) ∧
     (responses s i=[] ∨ ∃r,responses s i=[r] ∧ r.id=id) ∧
     (¬CancelledInFlight server trace i key → s.returned=true →
      ∃r,responses s i=[r] ∧ r.id=id)
   | .reply r=>(responses s i=[] ∨ responses s i=[r]) ∧
     (s.returned=true → responses s i=[r])
   | _=>responses s i=[]) ∧
  (s.returned=true → ∀i call,s.calls i=some call → call.stage=.finished) := by
 have h:=consistent_run hkeys hrun
 refine ⟨fun i line hline=>?_,fun hr=>(returned_settled hrun hr).2⟩
 have hl:i < input.length:=(List.getElem?_eq_some_iff.1 hline).1
 have hrd:s.returned=true → i<s.next := by
  intro hr
  rw [h.next_eq (returned_settled hrun hr).1]
  exact hl
 cases hef : lineEffect server line with
 | call key id=>
  by_cases hi : i<s.next
  · obtain ⟨call,hcl⟩:=h.registered i line key id hi hline hef
    obtain ⟨-,⟨line',hl',he'⟩,hin⟩:=h.calls i call hcl
    rw [hline,Option.some.injEq] at hl'
    rw [← hl',hef,Effect.call.injEq] at he'
    obtain ⟨rfl,rfl⟩:=he'
    obtain ⟨hc,hm,hd⟩:=hin.responses
    exact ⟨hc,hm,fun hnt hr=>
     hd hnt ((returned_settled hrun hr).2 i call hcl)⟩
  · have hn:=h.fresh i (by omega)
    exact ⟨fun _=>hn,.inl hn,fun _ hr=>absurd (hrd hr) hi⟩
 | reply r=>
  by_cases hi : i<s.next
  · have ha:=h.answered i line hi hline
    simp only [LineAnswered,hef] at ha
    exact ⟨.inr ha,fun _=>ha⟩
  · exact ⟨.inl (h.fresh i (by omega)),fun hr=>absurd (hrd hr) hi⟩
 | none=>
  by_cases hi : i<s.next
  · simpa only [LineAnswered,hef] using h.answered i line hi hline
  · exact h.fresh i (by omega)
 | cancel key=>
  by_cases hi : i<s.next
  · simpa only [LineAnswered,hef] using h.answered i line hi hline
  · exact h.fresh i (by omega)

def callLine : Line :=
 .data (.ok (.object [(text "jsonrpc",.string (text "2.0")),(text "id",.number { whole:=1 }),
  (text "method",.string (text "tools/call")),
  (text "params",.object [(text "name",.string (text "greet"))])]))

def cancelLine : Line :=
 .data (.ok (.object [(text "jsonrpc",.string (text "2.0")),
  (text "method",.string (text "notifications/cancelled")),
  (text "params",.object [(text "requestId",.number { whole:=1 })])]))

def oneKey : Text:=text "integer:"++text (toString (1:ℤ))

lemma callLine_effect :
 lineEffect bareServer callLine=.call oneKey (.number { whole:=1 }) := rfl

lemma cancelLine_effect : lineEffect bareServer cancelLine=.cancel oneKey := rfl

lemma distinctKeys_sample : DistinctKeys bareServer [callLine,cancelLine] := by
 have hc:∀(i:ℕ) (key:Text),
   [callLine,cancelLine][i]?.bind (callKey bareServer)=some key → i=0:=by
  intro i key hi
  match i with
  | 0=>rfl
  | 1=>cases hi
  | i+2=>cases hi
 intro i j key hi hj
 rw [hc i key hi,hc j key hj]

theorem cancelled_call_unanswered : ∃trace s,
  Run bareServer { unread:=[callLine,cancelLine] } trace s ∧ s.returned=true ∧
   CancelledInFlight bareServer trace 0 oneKey ∧ responses s 0=[] := by
 have hs:Run bareServer { unread:=[callLine,cancelLine] } []
   { unread:=[callLine,cancelLine] }:=.refl
 have hcl:=hs.snoc (.read rfl)
 have hcn:=hcl.snoc (.read rfl)
 let cancelled : Call Unit:={ key:=oneKey,id:=.number { whole:=1 },canceled:=true }
 let response : Response Unit:=⟨.number { whole:=1 },.result ()⟩
 have hrm:=hcn.snoc (@Step.remove _ _ _ 0 cancelled response rfl rfl rfl)
 have hd:=hrm.snoc
  (@Step.drop _ _ _ 0 { cancelled with stage:=.deciding true response } response rfl rfl)
 have hr:=hd.snoc (.finish rfl ?_)
 · have hc:CancelledInFlight bareServer
     (([]++[.read 0 callLine])++[.read 1 cancelLine]++[.remove 0]++[.drop 0]++[.finish])
     0 oneKey :=
    ⟨[.read 0 callLine],1,cancelLine,[.remove 0,.drop 0,.finish],rfl,cancelLine_effect,
     ⟨callLine,mem_cons_self⟩,by simp⟩
   refine ⟨_,_,hr,rfl,hc,?_⟩
   have ha:=(calls_answered_once distinctKeys_sample hr).1 0 callLine rfl
   rw [callLine_effect] at ha
   exact ha.1 hc
 · intro i call hi
   match i with
   | 0=>
    cases hi
    rfl
   | i+1=>cases hi

/-- In every run of the session the table of calls in flight holds exactly the calls that are running,
  so that a cancellation finds the call it names, and it is empty when the session returns. -/
theorem inflight_exact (hkeys:DistinctKeys server input) (hrun:Run server { unread:=input } trace s) :
 (∀key i,s.inflight key=some i ↔
  ∃call,s.calls i=some call ∧ call.key=key ∧ call.stage=.running) ∧
 (s.returned=true → ∀key,s.inflight key=none) := by
 have h:=consistent_run hkeys hrun
 refine ⟨fun key i=>⟨h.inflight key i,?_⟩,fun hr key=>?_⟩
 · rintro ⟨call,hc,rfl,hs⟩
   have hin:=(h.calls i call hc).2.2
   rw [CallInv,hs] at hin
   exact hin.2.2.1
 · cases hi : s.inflight key with
   | none=>rfl
   | some i=>
    obtain ⟨call,hc,-,hs⟩:=h.inflight key i hi
    rw [(returned_settled hrun hr).2 i call hc] at hs
    cases hs

theorem call_inflight : ∃s,Run bareServer { unread:=[callLine,cancelLine] } [.read 0 callLine] s ∧
 s.inflight oneKey=some 0 := by
 have hr:Run bareServer { unread:=[callLine,cancelLine] } ([]++[.read 0 callLine]) _:=
  Run.refl.snoc (.read rfl)
 exact ⟨_,hr,((inflight_exact distinctKeys_sample hr).1 oneKey 0).2 ⟨_,rfl,rfl,rfl⟩⟩
end InvariantProtocol.GoStdio
