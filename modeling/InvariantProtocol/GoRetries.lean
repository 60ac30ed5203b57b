import InvariantProtocol.GoText
import InvariantProtocol.StatusCodes
/-! The retries of the Go HTTP client. A request is what is handed to `client.Do`; redirects that the
client follows are inside it. -/
namespace InvariantProtocol.GoRetries
open List GoText StatusCodes

section

structure Request where
 method : String
 url : String
 body : List UInt8

/-- What `callProto` does and sees: it finds the context done, sends a request, gets a status. -/
inductive Event where
 | contextDone
 | sent (request:Request)
 | answered (status:ℤ)

inductive ContextErr where
 | deadlineExceeded
 | canceled

def contextErrCode : ContextErr → Code
 | .deadlineExceeded=>.deadlineExceeded
 | .canceled=>.cancelled

structure Failure where
 code : Code
 format : String

/-- What is read of a body; an error of the reader can be one of the context. -/
inductive Body where
 | unreadable (cause:Option ContextErr)
 | tooLarge
 | decoded
 | malformed

inductive Reply where
 | failed (cause:Option ContextErr)
 | response (status:ℤ) (body:Body)

/-- What one round meets. The context is looked at before the request, after the call, again before a
  retry is considered, and by the sleep. -/
structure Round where
 before : Option ContextErr:=none
 refused : Option Failure:=none
 reply : Reply
 afterCall : Option ContextErr:=none
 afterRead : Option ContextErr:=none
 slept : Option ContextErr:=none

inductive Verdict where
 | returned (result:Except Failure Unit)
 | retry

/-- The methods of a binding are upper case: constants, or custom kinds that have been raised. -/
structure Handler where
 method : String
 upper : method.toUpper=method
 maxRetries : ℤ

def shouldRetryHTTPStatus (statusCode:ℤ) : Bool:=statusCode∈[429,500,502,503,504]

def isSafeRetryMethod (method:String) : Bool:=method.toUpper∈["GET","HEAD"]

def shouldRetry (h:Handler) (attempt:ℕ) (statusCode:ℤ) : Bool :=
 if h.maxRetries≤attempt then false
 else if isSafeRetryMethod h.method=false then false
 else if statusCode=0 then true
 else shouldRetryHTTPStatus statusCode

/-- A look at the context, and what follows if it is not done. -/
def checked (seen:Option ContextErr) (next:List Event×Verdict) : List Event×Verdict :=
 match seen with
 | some err=>([.contextDone],.returned (.error ⟨contextErrCode err,"http call %s %s canceled: %v"⟩))
 | none=>next

def failing (code:Code) (format:String) : List Event×Verdict:=([],.returned (.error ⟨code,format⟩))

/-- `sleepWithContext` and the next round, or the failure. -/
def retryOr (h:Handler) (attempt:ℕ) (statusCode:ℤ) (r:Round) (code:Code) (format:String) :
  List Event×Verdict :=
 if shouldRetry h attempt statusCode then checked r.slept ([],.retry) else failing code format

def afterFailure (h:Handler) (attempt:ℕ) (r:Round) (cause:Option ContextErr) : List Event×Verdict :=
 checked r.afterCall (checked cause
  (retryOr h attempt 0 r .unavailable "http call %s %s failed: %v"))

def afterRead (h:Handler) (attempt:ℕ) (r:Round) (status:ℤ) : Body → List Event×Verdict
 | .tooLarge=>failing .resourceExhausted "upstream HTTP response exceeds %d byte limit"
 | .unreadable cause=>
  checked r.afterRead (checked cause
   (retryOr h attempt status r .unavailable "read HTTP response body: %v"))
 | body=>
  if status<200 ∨ 300 ≤ status then
   checked r.afterRead (retryOr h attempt status r .unknown "%v")
  else match body with
   | .malformed=>failing .internal "decode HTTP response JSON: %v"
   | _=>([],.returned (.ok ()))

def afterCall (h:Handler) (attempt:ℕ) (r:Round) : List Event×Verdict :=
 match r.reply with
 | .failed cause=>afterFailure h attempt r cause
 | .response status body=>
  let rest:=checked r.afterCall (afterRead h attempt r status body)
  (.answered status::rest.1,rest.2)

def roundOf (h:Handler) (request:Request) (attempt:ℕ) (r:Round) : List Event×Verdict :=
 checked r.before (match r.refused with
  | some failure=>([],.returned (.error failure))
  | none=>(.sent request::(afterCall h attempt r).1,(afterCall h attempt r).2))

variable {h:Handler} {attempt:ℕ} {request:Request} {r:Round}
lemma shouldRetry_iff {statusCode:ℤ} : shouldRetry h attempt statusCode=true ↔
 attempt<h.maxRetries ∧ isSafeRetryMethod h.method=true ∧
  (statusCode=0 ∨ shouldRetryHTTPStatus statusCode=true) := by
 unfold shouldRetry
 split_ifs with hm hs hz
 · have hn:¬ (attempt:ℤ)<h.maxRetries:=by omega
   simp [hn]
 · simp [hs]
 all_goals
  have hlt:(attempt:ℤ)<h.maxRetries:=by omega
  simp [hz,hs,hlt]

/-- The end of a round: it sends nothing more, and goes on only under `P`, with nothing seen. -/
structure Settles (P:Prop) (rest:List Event×Verdict) : Prop where
 quiet : ∀request,.sent request∉rest.1
 retry : rest.2=.retry → P ∧ rest.1=[]

lemma Settles.checked {P:Prop} {next:List Event×Verdict} (seen:Option ContextErr)
 (hn:Settles P next) : Settles P (checked seen next) := by
 cases seen with
 | none=>exact hn
 | some err=>exact ⟨by simp [GoRetries.checked],nofun⟩

lemma settles_returned {P:Prop} (result:Except Failure Unit) : Settles P ([],.returned result) :=
 ⟨by simp,nofun⟩

lemma settles_retryOr (statusCode:ℤ) (code:Code) (format:String) :
 Settles (shouldRetry h attempt statusCode=true) (retryOr h attempt statusCode r code format) := by
 unfold retryOr
 split_ifs with hr
 · exact .checked _ ⟨by simp,fun _=>⟨hr,rfl⟩⟩
 · exact settles_returned _

lemma settles_afterFailure (cause:Option ContextErr) :
 Settles (shouldRetry h attempt 0=true) (afterFailure h attempt r cause) :=
 .checked _ (.checked _ (settles_retryOr _ _ _))

lemma settles_afterRead (status:ℤ) (body:Body) :
 Settles (shouldRetry h attempt status=true) (afterRead h attempt r status body) := by
 unfold afterRead
 split
 · exact settles_returned _
 · exact .checked _ (.checked _ (settles_retryOr _ _ _))
 · split_ifs
   · exact .checked _ (settles_retryOr _ _ _)
   · split
     · exact settles_returned _
     · exact settles_returned _

lemma roundOf_sends (h:Handler) (request:Request) (attempt:ℕ) (r:Round) : ∃rest, (∀later,.sent later∉rest) ∧
  ((roundOf h request attempt r).1=rest ∨ (roundOf h request attempt r).1=.sent request::rest) := by
 unfold roundOf
 cases r.before with
 | some err=>exact ⟨[.contextDone],by simp,.inl rfl⟩
 | none=>
  cases r.refused with
  | some failure=>exact ⟨[],by simp,.inl rfl⟩
  | none=>
   refine ⟨(afterCall h attempt r).1,?_,.inr rfl⟩
   unfold afterCall
   cases r.reply with
   | failed cause=>exact (settles_afterFailure cause).quiet
   | response status body=>
    have ha:Settles (shouldRetry h attempt status=true) (afterRead h attempt r status body):=
     settles_afterRead status body
    simpa using (ha.checked r.afterCall).quiet

lemma roundOf_retry (e:(roundOf h request attempt r).2=.retry) :
 shouldRetry h attempt 0=true ∧ (roundOf h request attempt r).1=[.sent request] ∨
  ∃status body,r.reply=.response status body ∧ shouldRetry h attempt status=true ∧
   (roundOf h request attempt r).1=[.sent request,.answered status] := by
 unfold roundOf at e ⊢
 cases hb : r.before with
 | some err=>rw [hb] at e;cases e
 | none=>
  rw [hb] at e
  cases hr : r.refused with
  | some failure=>rw [hr] at e;cases e
  | none=>
   rw [hr] at e
   simp only [checked,afterCall] at e ⊢
   cases hrp : r.reply with
   | failed cause=>
    rw [hrp] at e
    obtain ⟨hrt,hrs⟩:=(settles_afterFailure cause).retry e
    exact .inl ⟨hrt,by simp only [hrs]⟩
   | response status body=>
    rw [hrp] at e
    obtain ⟨hrt,hrs⟩:=((settles_afterRead status body).checked r.afterCall).retry e
    exact .inr ⟨status,body,rfl,hrt,by simp only [checked] at hrs;simp only [hrs]⟩

lemma roundOf_attempt (e:(roundOf h request attempt r).2=.retry) :
 attempt<h.maxRetries ∧ isSafeRetryMethod h.method=true := by
 rcases roundOf_retry e with ⟨hr,-⟩|⟨_,_,-,hr,-⟩
 all_goals exact ⟨(shouldRetry_iff.1 hr).1,(shouldRetry_iff.1 hr).2.1⟩

def callFrom (h:Handler) (request:Request) (rounds:ℕ → Round) (attempt:ℕ) :
  List Event×Except Failure Unit :=
 match e : (roundOf h request attempt (rounds attempt)).2 with
 | .returned result=>((roundOf h request attempt (rounds attempt)).1,result)
 | .retry=>
  have:=(roundOf_attempt e).1
  let rest:=callFrom h request rounds (attempt+1)
  ((roundOf h request attempt (rounds attempt)).1++rest.1,rest.2)
termination_by (h.maxRetries-attempt).toNat

def callProto (h:Handler) (build:Except Failure (List UInt8×String)) (rounds:ℕ → Round) :
  List Event×Except Failure Unit :=
 match build with
 | .error failure=>([],.error failure)
 | .ok (bodyBytes,endpointURL)=>callFrom h ⟨h.method,endpointURL,bodyBytes⟩ rounds 0

def isSent : Event → Bool
 | .sent _=>true
 | _=>false

def sends (events:List Event) : ℕ:=events.countP isSent

def mayPrecede : Event → Bool
 | .contextDone=>false
 | .sent _=>true
 | .answered status=>shouldRetryHTTPStatus status

structure Safe (h:Handler) (events:List Event) : Prop where
 bounded : 0≤h.maxRetries → sends events≤h.maxRetries+1
 unsafeOnce : h.method≠"GET" → h.method≠"HEAD" → sends events≤1
 ordered : events.Pairwise fun earlier later=>isSent later=true → mayPrecede earlier=true
 same : ∃request,∀later,.sent later∈events → later=request

lemma isSafeRetryMethod_eq_false (h:Handler) :
 isSafeRetryMethod h.method=false ↔ h.method≠"GET" ∧ h.method≠"HEAD" := by
 simp [isSafeRetryMethod,h.upper]

variable {rest:List Event}
lemma isSent_of_quiet (hq:∀later,.sent later∉rest) : ∀e∈rest,¬ isSent e=true := by
 intro e he
 cases e with
 | sent later=>exact absurd he (hq later)
 | contextDone=>nofun
 | answered status=>nofun

/-- A property of runs that the last round has, and that a round which is retried keeps. -/
theorem callFrom_induction {rounds:ℕ → Round} {P:ℕ → List Event → Prop}
 (last:∀attempt rest,(∀later,.sent later∉rest) → P attempt rest ∧ P attempt (.sent request::rest))
 (next:∀(attempt:ℕ) answers rest,attempt<h.maxRetries → isSafeRetryMethod h.method=true →
  (answers=[] ∨ ∃status body,(rounds attempt).reply=.response status body ∧
   (status=0 ∨ shouldRetryHTTPStatus status=true) ∧ answers=[.answered status]) →
  P (attempt+1) rest → P attempt (.sent request::(answers++rest)))
 (attempt:ℕ) : P attempt (callFrom h request rounds attempt).1 := by
 induction attempt using callFrom.induct h request rounds with
 | case1 attempt result e=>
  unfold callFrom
  split
  · obtain ⟨rest,hq,hrs|hrs⟩:=roundOf_sends h request attempt (rounds attempt)
    · simpa only [hrs] using (last attempt rest hq).1
    · simpa only [hrs] using (last attempt rest hq).2
  · rename_i e'
    rw [e] at e'
    cases e'
 | case2 attempt e _ ih=>
  unfold callFrom
  split
  · rename_i e'
    rw [e] at e'
    cases e'
  · obtain ⟨ha,hs⟩:=roundOf_attempt e
    rcases roundOf_retry e with ⟨-,hr⟩|⟨status,body,hrp,hrt,hr⟩
    · simpa only [hr,cons_append] using next attempt [] _ ha hs (.inl rfl) ih
    · simpa only [hr,cons_append] using next attempt [.answered status] _ ha hs
       (.inr ⟨status,body,hrp,(shouldRetry_iff.1 hrt).2.2,rfl⟩) ih

variable (rounds:ℕ → Round)
lemma countP_quiet (hq:∀later,.sent later∉rest) : sends rest=0 :=
 List.countP_eq_zero.2 (isSent_of_quiet hq)

lemma callFrom_sends (attempt:ℕ) :
 sends (callFrom h request rounds attempt).1≤(h.maxRetries-attempt).toNat+1 := by
 refine callFrom_induction (P := fun attempt events=>sends events≤(h.maxRetries-attempt).toNat+1)
  ?_ ?_ attempt
 · intro attempt rest hq
   have hr:=countP_quiet hq
   simp only [sends,countP_cons,isSent,if_true] at hr ⊢
   omega
 · intro attempt answers rest hat hs ha ih
   have ha:sends answers=0:=by
    rcases ha with rfl|⟨status,body,-,-,rfl⟩
    · rfl
    · rfl
   simp only [sends,countP_cons,countP_append,isSent,if_true] at ha ih ⊢
   omega

lemma callFrom_once (ho:isSafeRetryMethod h.method=false) (attempt:ℕ) :
 sends (callFrom h request rounds attempt).1≤1 := by
 refine callFrom_induction (P := fun _ events=>sends events≤1) ?_ ?_ attempt
 · intro attempt rest hq
   have hr:=countP_quiet hq
   simp only [sends,countP_cons,isSent,if_true] at hr ⊢
   omega
 · intro attempt answers rest ha hs
   rw [ho] at hs
   cases hs

lemma callFrom_same (attempt:ℕ) {later:Request}
 (hl:.sent later∈(callFrom h request rounds attempt).1) : later=request := by
 revert hl
 refine callFrom_induction (P := fun _ events=>.sent later∈events → later=request) ?_ ?_ attempt
 · intro attempt rest hq
   simp [hq later]
 · intro attempt answers rest hat hs ha ih hl
   rcases ha with rfl|⟨status,body,-,-,rfl⟩
   · simp only [mem_cons,nil_append,Event.sent.injEq] at hl
     exact hl.elim id ih
   · simp only [mem_cons,mem_append,Event.sent.injEq,reduceCtorEq,not_mem_nil,or_false,false_or] at hl
     exact hl.elim id ih

def Ordered (earlier later:Event) : Prop:=isSent later=true → mayPrecede earlier=true

lemma pairwise_quiet (hq:∀later,.sent later∉rest) : rest.Pairwise Ordered := by
 refine List.Pairwise.imp_of_mem ?_ (pairwise_of_forall (R := fun _ _=>True) (by simp))
 intro earlier later _ hl _ hs
 exact absurd hs (isSent_of_quiet hq later hl)

lemma callFrom_ordered (hz:isSafeRetryMethod h.method=true → 0<h.maxRetries →
  ∀n body,(rounds n).reply≠.response 0 body) (attempt:ℕ) :
 (callFrom h request rounds attempt).1.Pairwise Ordered := by
 refine callFrom_induction (P := fun _ events=>events.Pairwise Ordered) ?_ ?_ attempt
 · intro attempt rest hq
   have hr:=pairwise_quiet hq
   exact ⟨hr,List.pairwise_cons.2 ⟨fun _ _ _=>rfl,hr⟩⟩
 · intro attempt answers rest hat hsf ha ih
   have hp:0<h.maxRetries:=by omega
   refine List.pairwise_cons.2 ⟨fun _ _ _=>rfl,?_⟩
   rcases ha with rfl|⟨status,body,hrp,hs,rfl⟩
   · exact ih
   · refine List.pairwise_cons.2 ⟨fun _ _ _=>?_,ih⟩
     rcases hs with rfl|hs
     · exact absurd hrp (hz hsf hp attempt body)
     · exact hs

lemma callProto_safe {h:Handler} (build:Except Failure (List UInt8×String)) {rounds:ℕ → Round}
 (hz:isSafeRetryMethod h.method=true → 0<h.maxRetries → ∀n body,(rounds n).reply≠.response 0 body) :
 Safe h (callProto h build rounds).1 := by
 cases build with
 | error failure=>
  refine ⟨fun h0=>?_,fun _ _=>Nat.zero_le 1,.nil,⟨⟨"","",[]⟩,nofun⟩⟩
  exact Int.add_nonneg h0 (by decide)
 | ok built=>
  refine ⟨fun h0=>?_,fun hg hh=>?_,callFrom_ordered rounds hz 0,⟨_,fun _=>callFrom_same rounds 0⟩⟩
  · have hs:sends (callProto h (.ok built) rounds).1≤(h.maxRetries-(0:ℕ)).toNat+1:=
     callFrom_sends rounds 0
    omega
  · exact callFrom_once rounds ((isSafeRetryMethod_eq_false h).2 ⟨hg,hh⟩) 0

def zeros : ℕ → Round:=fun _=>⟨none,none,.response 0 .decoded,none,none,none⟩

lemma roundOf_zeros : (roundOf h request attempt (zeros attempt)).1=[.sent request,.answered 0] := by
 simp only [roundOf,zeros,checked,afterCall,afterRead,retryOr,failing]
 split_ifs
 · rfl
 · rfl
 · contradiction

lemma zeros_retry (hr:shouldRetry h attempt 0=true) :
 (roundOf h request attempt (zeros attempt)).2=.retry := by
 simp [roundOf,zeros,checked,afterCall,afterRead,retryOr,hr]

lemma zeros_sent (attempt:ℕ) : .sent request∈(callFrom h request zeros attempt).1 := by
 unfold callFrom
 split
 · simp [roundOf_zeros]
 · simp [roundOf_zeros]

lemma zeros_not_safe (hs:isSafeRetryMethod h.method=true) (hp:0<h.maxRetries) :
 ¬ Safe h (callProto h (.ok ([],"/")) zeros).1 := by
 intro hrn
 have hr:shouldRetry h 0 0=true:=shouldRetry_iff.2 ⟨hp,hs,.inl rfl⟩
 have ho:=hrn.ordered
 simp only [callProto] at ho
 rw [callFrom] at ho
 split at ho
 · rename_i e
   rw [zeros_retry hr] at e
   cases e
 · simp only [roundOf_zeros,cons_append,pairwise_cons] at ho
   exact absurd (ho.2.1 _ (zeros_sent 1) rfl) (by decide)

/-- Status 0 is taken for a transport error: the client accepts the status line `HTTP/1.1 000`, and
  the request is sent again. -/
theorem zero_status_retried : ¬ Safe ⟨"GET",by decide +kernel,2⟩
  (callProto ⟨"GET",by decide +kernel,2⟩ (.ok ([],"/")) zeros).1 :=
 zeros_not_safe (by decide +kernel) (by decide)

theorem retries_safe_iff (h:Handler) (S:Set ℤ) :
  (∀build rounds,(∀n status body,(rounds n).reply=.response status body → status∈S) →
   Safe h (callProto h build rounds).1) ↔
   0∉S ∨ h.maxRetries≤0 ∨ (h.method≠"GET" ∧ h.method≠"HEAD") := by
 rw [← isSafeRetryMethod_eq_false]
 constructor
 · intro hs
   by_contra hnot
   simp only [not_or,Classical.not_not,Int.not_le,Bool.not_eq_false] at hnot
   refine zeros_not_safe hnot.2.2 hnot.2.1 (hs _ _ ?_)
   rintro n status body ⟨⟩
   exact hnot.1
 · intro hc build rounds hst
   refine callProto_safe build fun hs hp n body hr=>?_
   rcases hc with hz|hm|ho
   · exact hz (hst n 0 body hr)
   · omega
   · rw [ho] at hs
     cases hs
end

abbrev Duration:=Int64

def second : Duration:=1000000000

def baseHTTPClientRetryDelay : Duration:=100000000

def maxHTTPClientRetryDelay : Duration:=2*second

/-- `timeUntil` reads a date and gives the time left until then. -/
def parseRetryAfterDelay (timeUntil:String → Option Duration) (raw:String) : Option Duration :=
 if trimSpace raw = "" then none
 else match parseInt 64 (trimSpace raw) with
  | some secs=>if secs≤0 then some 0 else some (Int64.ofInt secs*second)
  | none=>(timeUntil (trimSpace raw)).map fun d=>if d<0 then 0 else d

def doubled : ℕ → Duration → Duration
 | 0,delay=>delay
 | n+1,delay=>if maxHTTPClientRetryDelay≤delay*2 then maxHTTPClientRetryDelay else doubled n (delay*2)

def httpRetryDelay (timeUntil:String → Option Duration) (attempt:ℕ) (retryAfter:String) : Duration :=
 (parseRetryAfterDelay timeUntil retryAfter).getD (doubled attempt baseHTTPClientRetryDelay)

lemma parseInt_lt {s:String} {n:ℤ} (h:parseInt 64 s=some n) : n<2^63 := by
 unfold parseInt at h
 split at h
 all_goals
  obtain ⟨m,-,hm⟩:=Option.bind_eq_some_iff.1 h
  split_ifs at hm
  cases hm
  omega

lemma seconds_toInt {n:ℤ} (hp:0<n) (hlt:n<2^63) :
 (Int64.ofInt n*second).toInt=(n*1000000000).bmod (2^64) := by
 have hn:(Int64.ofInt n).toInt=n:=Int64.toInt_ofInt_of_le (by omega) hlt
 rw [Int64.toInt_mul,hn]
 rfl

lemma seconds_exact_iff {n:ℤ} (hp:0<n) : (n*1000000000).bmod (2^64)=n*1000000000 ↔ n≤9223372036 := by
 constructor
 · intro heq
   have hlt:=Int.bmod_lt (x := n*1000000000) (m := 2^64) (by decide)
   rw [heq] at hlt
   omega
 · intro hle
   exact Int.bmod_eq_of_le (by omega) (by omega)

/-- Seconds whose nanoseconds do not fit into 64 bits wrap around. -/
theorem retry_after_exact_iff (timeUntil:String → Option Duration) (attempt:ℕ) (raw:String) (n:ℤ)
  (hpos:0<n) (hparsed:parseInt 64 (trimSpace raw)=some n) :
  ((∃d,parseRetryAfterDelay timeUntil raw=some d ∧ httpRetryDelay timeUntil attempt raw=d ∧
    0<d.toInt ∧ d.toInt=n*1000000000) ∨ parseRetryAfterDelay timeUntil raw=none) ↔
   n≤9223372036 := by
 have hne:trimSpace raw≠"" := by
  intro hem
  rw [hem] at hparsed
  cases hparsed
 have hdl:parseRetryAfterDelay timeUntil raw=some (Int64.ofInt n*second) := by
  simp only [parseRetryAfterDelay,hne,if_false,hparsed,Int.not_le.2 hpos]
 have hi:=seconds_toInt hpos (parseInt_lt hparsed)
 rw [← seconds_exact_iff hpos,← hi,hdl]
 constructor
 · rintro (⟨d,hd,-,-,hex⟩|hn)
   · cases hd
     exact hex
   · cases hn
 · intro hex
   refine .inl ⟨_,rfl,by simp only [httpRetryDelay,hdl,Option.getD_some],?_,hex⟩
   omega

theorem retry_after_minutes : (0:ℤ)<120 ∧ parseInt 64 (trimSpace " 120")=some 120 ∧
  (((∃d,parseRetryAfterDelay (fun _=>none) " 120" = some d ∧ httpRetryDelay (fun _=>none) 1 " 120" = d ∧
    0<d.toInt ∧ d.toInt=120*1000000000) ∨ parseRetryAfterDelay (fun _=>none) " 120" = none) ↔
   (120:ℤ)≤9223372036) :=
 ⟨by decide,by decide,retry_after_exact_iff _ 1 " 120" 120 (by decide) (by decide)⟩

/-- The delay is negative, so that the sleep ends at once. -/
theorem retry_after_wraps : parseInt 64 (trimSpace "9223372037")=some 9223372037 ∧
  parseRetryAfterDelay (fun _=>none) "9223372037" = some (-9223372036709551616) ∧
  httpRetryDelay (fun _=>none) 0 "9223372037" = -9223372036709551616 := by
 decide
end InvariantProtocol.GoRetries
