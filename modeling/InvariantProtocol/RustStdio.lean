import InvariantProtocol.FramedOutput
import InvariantProtocol.ListRelations
import InvariantProtocol.MessageClasses
/-! The stdio session of the Rust runtime. A task is aborted at the await point it has reached. -/
namespace InvariantProtocol.RustStdio
open List ListRelations JsonValue GoMessages MessageClasses FramedOutput

section

/-- A line that is all white space, or its document, if the decoder accepts one. -/
inductive Line where
 | blank
 | data (document:Option Value)

inductive Effect (Reply:Type) where
 | none
 | reply (response:Reply)
 | cancel (key:Text)
 | call (key:Text)

/-- What the session needs of the server and of `serde_json`: the texts of values, the replies the
  reader gives itself, and the encoding of replies. -/
structure Server (Reply:Type) where
 numbers : SerdeReader
 display : Value → Text
 parseError : Reply
 invalidRequest : Reply
 dispatch : Value → Option Reply
 encode : Reply → Bytes

variable {Reply:Type} (server:Server Reply)
def canonicalJsonrpcId : Value → Value
 | .number n=>
  match Rust.jsonrpcSafeInteger server.numbers n with
  | some i=>.number (Number.ofInt i)
  | none=>.number n
 | id=>id

def idType : Value → Text
 | .number _=>text "num"
 | .string _=>text "str"
 | .null=>text "null"
 | _=>text "other"

def idKey (id:Value) : Text :=
 idType (canonicalJsonrpcId server id)++text ":"++server.display (canonicalJsonrpcId server id)

def isMethod (name:Text) : Option Value → Bool
 | some (.string s)=>s=name
 | _=>false

def member (name:Text) : Option Value → Option Value
 | some (.object members)=>get members name
 | _=>none

def handleNotification (msg:Members) : Effect Reply :=
 if isMethod (text "notifications/cancelled") (get msg (text "method")) then
  match member (text "requestId") (get msg (text "params")) with
  | some id=>.cancel (idKey server id)
  | none=>.none
 else .none

def messageEffect (msg:Members) : Effect Reply :=
 match get msg (text "id") with
 | none=>handleNotification server msg
 | some id=>
  if isMethod (text "tools/call") (get msg (text "method")) then .call (idKey server id)
  else match server.dispatch (.object msg) with
   | some response=>.reply response
   | none=>.none

def lineEffect : Line → Effect Reply
 | .blank=>.none
 | .data none=>.reply server.parseError
 | .data (some doc)=>
  if invalidRequestResponse (Rust.validators server.numbers) doc then .reply server.invalidRequest
  else if isClientResponse (Rust.validators server.numbers) doc then .none
  else match doc with
   | .object msg=>messageEffect server msg
   | _=>.none
end

section

inductive Writer where
 | reader
 | task (i:ℕ)
 deriving DecidableEq

inductive TaskStage where
 | dispatching
 | replying
 | removing
 | finished
 deriving DecidableEq

def TaskStage.ended (stage:TaskStage) : Bool:=stage=.removing || stage=.finished

/-- After its last await point a task is not stopped any more: it still removes its handle. -/
def TaskStage.aborted : TaskStage → TaskStage
 | .removing=>.removing
 | _=>.finished

lemma TaskStage.ended_aborted (stage:TaskStage) : stage.aborted.ended=true := by cases stage <;> rfl

structure Task where
 key : Text
 stage : TaskStage:=.dispatching

/-- The loop over the lines, and the wait for the tasks that were in flight at its end. -/
inductive Loop where
 | reading
 | draining (pending:List ℕ)

/-- `inflight` is the map from keys to task handles. -/
structure State where
 unread : List Line
 loop : Loop:=.reading
 tasks : ℕ → Option Task:=fun _=>none
 next : ℕ:=0
 inflight : List (Text×ℕ):=[]
 io : Output Writer:={}
 returned : Bool:=false

def newline : UInt8:=10

variable {Reply:Type}
def frame (server:Server Reply) (response:Reply) : Bytes:=server.encode response++[newline]

def remove (inflight:List (Text×ℕ)) (key:Text) : List (Text×ℕ) :=
 inflight.filter fun entry=>entry.1≠key

def registered (s:State) : List ℕ :=
 match s.loop with
 | .reading=>s.inflight.map Prod.snd
 | .draining pending=>pending

def setStage (s:State) (i:ℕ) (stage:TaskStage) : State :=
 { s with tasks:=Function.update s.tasks i ((s.tasks i).map fun task=>{ task with stage }) }

def abort (s:State) (i:ℕ) : State :=
 { s with
   tasks:=Function.update s.tasks i ((s.tasks i).map fun task=>{ task with stage:=task.stage.aborted })
   io:=s.io.abandon (.task i) }

/-- The end of a task takes whatever handle its key has. -/
def finish (s:State) (i:ℕ) (key:Text) : State :=
 { setStage s i .finished with inflight:=remove s.inflight key }

def readLine (server:Server Reply) (s:State) (rest:List Line) : Effect Reply → State
 | .none=>{ s with unread:=rest }
 | .reply response=>{ s with unread:=rest,io:=s.io.start .reader (frame server response) }
 | .cancel key=>
  match s.inflight.lookup key with
  | some i=>{ abort s i with unread:=rest,inflight:=remove s.inflight key }
  | none=>{ s with unread:=rest }
 | .call key=>
  { s with
    unread:=rest
    tasks:=Function.update s.tasks s.next (some { key })
    next:=s.next+1
    inflight:=(key,s.next)::remove s.inflight key }

inductive Event where
 | read (line:Line)
 | endOfInput
 | shutdown
 | task (i:ℕ)
 | write (w:Writer)
 | exit

inductive Step (server:Server Reply) : State → Event → State → Prop where
 | read {s:State} {line:Line} {rest:List Line} (hloop:s.loop=.reading)
   (hidle:s.io.stage .reader=.idle) (hline:s.unread=line::rest) :
   Step server s (.read line) (readLine server s rest (lineEffect server line))
 | endOfInput {s:State} (hloop:s.loop=.reading) (hidle:s.io.stage .reader=.idle)
   (hend:s.unread=[]) :
   Step server s .endOfInput { s with loop:=.draining (registered s),inflight:=[] }
 | shutdown {s:State} (hidle:s.io.stage .reader=.idle) :
   Step server s .shutdown
    { (registered s).foldl abort s with loop:=.draining (registered s),inflight:=[] }
 | dispatched {s:State} {i:ℕ} {task:Task} (htask:s.tasks i=some task)
   (hstage:task.stage=.dispatching) (response:Reply) :
   Step server s (.task i)
    { setStage s i .replying with io:=s.io.start (.task i) (frame server response) }
 | silent {s:State} {i:ℕ} {task:Task} (htask:s.tasks i=some task)
   (hstage:task.stage=.dispatching) : Step server s (.task i) (setStage s i .removing)
 | remove {s:State} {i:ℕ} {task:Task} (htask:s.tasks i=some task)
   (hstage:task.stage=.removing) : Step server s (.task i) (finish s i task.key)
 | acquire {s:State} {w:Writer} {body:Bytes} (hwaiting:s.io.stage w=.waiting body)
   (hlock:s.io.lock=none) : Step server s (.write w) { s with io:=s.io.acquire w body }
 | poll {s:State} {w:Writer} {written chunk rest:Bytes}
   (hwriting:s.io.stage w=.writing written (chunk++rest)) (hchunk:chunk≠[]) :
   Step server s (.write w) { s with io:=s.io.poll w written chunk rest }
 | flushReader {s:State} (hflushing:s.io.stage .reader=.flushing) :
   Step server s (.write .reader) { s with io:=s.io.flush .reader }
 | flushTask {s:State} {i:ℕ} {task:Task} (htask:s.tasks i=some task)
   (hflushing:s.io.stage (.task i)=.flushing) :
   Step server s (.write (.task i)) { setStage s i .removing with io:=s.io.flush (.task i) }
 | exit {s:State} {pending:List ℕ} (hloop:s.loop=.draining pending)
   (hdone:∀i∈pending,∀task,s.tasks i=some task → task.stage=.finished) :
   Step server s .exit { s with returned:=true }

inductive Run (server:Server Reply) (Allowed:State → Event → Prop) (s:State) : State → Prop where
 | refl : Run server Allowed s s
 | next {t u:State} {e:Event} (run:Run server Allowed s t) (step:Step server t e u)
   (allowed:Allowed t e) : Run server Allowed s u

/-- No abort strikes a task between the first and the last byte of its response, no call is registered
  under a key that has a handle, and no task removes the handle of another. -/
def Clean (server:Server Reply) (s:State) : Event → Prop
 | .read line=>
  match lineEffect server line with
  | .cancel key=>∀i,s.inflight.lookup key=some i → ¬MidWrite s.io (.task i)
  | .call key=>s.inflight.lookup key=none
  | _=>True
 | .shutdown=>∀i∈registered s,¬MidWrite s.io (.task i)
 | .task i=>∀task j,s.tasks i=some task → task.stage=.removing → s.inflight.lookup task.key=some j → j=i
 | _=>True
end

section
variable {Reply:Type}
def Tracked (s:State) (key:Text) (i:ℕ) : Prop :=
 match s.loop with
 | .reading=>(key,i)∈s.inflight
 | .draining pending=>i∈pending

/-- The output is framed, and every task that may still write has a handle the session waits for. -/
structure Sound (server:Server Reply) (s:State) : Prop where
 framed : Framed s.io
 handed : ∀body∈s.io.handed,∃response,body=frame server response
 replying : ∀i,s.io.stage (.task i)≠.idle → ∃task,s.tasks i=some task ∧ task.stage=.replying
 live : ∀i task,s.tasks i=some task → task.stage.ended=false → Tracked s task.key i
 keys : (s.inflight.map Prod.fst).Nodup
 fresh : ∀i,s.next ≤ i → s.tasks i=none
 idle : s.loop≠.reading → s.io.stage .reader=.idle
 settled : s.returned=true → s.loop≠.reading ∧
  ∀i task,s.tasks i=some task → task.stage.ended=true

variable {server:Server Reply} {s t:State} {i:ℕ}
lemma sound_initial (input:List Line) : Sound server { unread:=input } where
 framed:=framed_initial
 handed body h:=by cases h
 replying i h:=absurd rfl h
 live i task h:=by cases h
 keys:=nodup_nil
 fresh _ _:=rfl
 idle h:=absurd rfl h
 settled h:=by cases h

lemma Sound.of_io (h:Sound server s) (hr:t={ s with unread:=t.unread,io:=t.io })
 (hf:Framed t.io) (hh:∀body∈t.io.handed,∃response,body=frame server response)
 (ht:∀j,t.io.stage (.task j)≠.idle → s.io.stage (.task j)≠.idle)
 (hi:s.loop≠.reading → t.io.stage .reader=.idle) : Sound server t := by
 rw [hr]
 exact {
  framed:=hf
  handed:=hh
  replying:=fun j hj=>h.replying j (ht j hj)
  live:=h.live
  keys:=h.keys
  fresh:=h.fresh
  idle:=hi
  settled:=h.settled }

lemma Sound.handed_start (h:Sound server s) (w:Writer) (response:Reply) :
 ∀body∈(s.io.start w (frame server response)).handed,∃r,body=frame server r := by
 intro body hb
 rcases mem_append.1 hb with hb|hb
 · exact h.handed body hb
 · exact ⟨response,mem_singleton.1 hb⟩

variable {inflight:List (Text×ℕ)} {key:Text} {j:ℕ} {task:Task}
lemma mem_remove {entry:Text×ℕ} : entry∈remove inflight key ↔ entry∈inflight ∧ entry.1≠key := by
 simp [remove]

lemma nodup_remove (h:(inflight.map Prod.fst).Nodup) (key:Text) :
 ((remove inflight key).map Prod.fst).Nodup :=
 h.sublist (List.Sublist.map _ filter_sublist)

section
variable (h:Sound server s)
include h
lemma Sound.handle_unique (hi:(key,i)∈s.inflight) (hj:(key,j)∈s.inflight) : i=j :=
 (Prod.mk.inj (inj_on_of_nodup_map h.keys hi hj rfl)).2

/-- A change of one task's stage: it is finished, or replies, or keeps its handle. -/
theorem Sound.of_task (stage:TaskStage)
 (ht:s.tasks i=some task) (hts:t.tasks=(setStage s i stage).tasks)
 (hlp:t.loop=s.loop) (hn:t.next=s.next) (hrt:t.returned=s.returned)
 (hf:Framed t.io) (hh:∀body∈t.io.handed,∃response,body=frame server response)
 (hot:∀w,w≠.task i → t.io.stage w=s.io.stage w) (hrp:t.io.stage (.task i)≠.idle → stage=.replying)
 (hin:t.inflight=s.inflight) (hst:s.returned=true → stage.ended=true)
 (how:stage.ended=false → task.stage.ended=false) : Sound server t := by
 have hsl:t.tasks i=some { task with stage }:=by
  rw [hts]
  simp [setStage,ht]
 have ho:∀j,j≠i → t.tasks j=s.tasks j:=by
  intro j hj
  rw [hts]
  exact Function.update_of_ne hj _ _
 have htr:∀key j,Tracked s key j → Tracked t key j:=by
  unfold Tracked
  rw [hlp,hin]
  exact fun _ _ h=>h
 refine ⟨hf,hh,?_,?_,hin ▸ h.keys,?_,?_,?_⟩
 · intro j hj
   by_cases hji : j=i
   · subst hji
     exact ⟨_,hsl,hrp hj⟩
   · rw [ho j hji]
     rw [hot _ (by simpa using hji)] at hj
     exact h.replying j hj
 · intro j task' ht' hs
   by_cases hji : j=i
   · subst hji
     rw [hsl,Option.some.injEq] at ht'
     subst ht'
     exact htr _ _ (h.live j task ht (how hs))
   · rw [ho j hji] at ht'
     exact htr _ _ (h.live j task' ht' hs)
 · intro j hj
   rw [hn] at hj
   have hji:j≠i:=by
    rintro rfl
    rw [h.fresh j hj] at ht
    cases ht
   rw [ho j hji]
   exact h.fresh j hj
 · intro hl
   rw [hot _ (by simp)]
   exact h.idle (by rwa [←hlp])
 · intro hr
   rw [hrt] at hr
   obtain ⟨hl,hd⟩:=h.settled hr
   refine ⟨by rwa [hlp],fun j task' ht' => ?_⟩
   by_cases hji : j=i
   · subst hji
     rw [hsl,Option.some.injEq] at ht'
     subst ht'
     exact hst hr
   · rw [ho j hji] at ht'
     exact hd j task' ht'

lemma Sound.task_idle (ht:s.tasks i=some task)
 (hs:task.stage≠.replying) : s.io.stage (.task i)=.idle := by
 by_contra hi
 obtain ⟨task',ht',hs'⟩:=h.replying i hi
 rw [ht,Option.some.injEq] at ht'
 subst ht'
 exact hs hs'

lemma Sound.not_returned (ht:s.tasks i=some task)
 (hs:task.stage.ended=false) : s.returned≠true := by
 intro hr
 rw [(h.settled hr).2 i task ht] at hs
 cases hs

lemma Sound.remove_handle (key:Text) (rest:List Line)
 (hk:s.loop=.reading → ∀j task,s.tasks j=some task → task.stage.ended=false → task.key≠key) :
 Sound server { s with unread:=rest,inflight:=remove s.inflight key } where
 framed:=h.framed
 handed:=h.handed
 replying:=h.replying
 live j task htask hstage:=by
  have ht:=h.live j task htask hstage
  unfold Tracked at ht ⊢
  cases hl : s.loop with
  | reading=>
   simp only [hl] at ht ⊢
   exact mem_remove.2 ⟨ht,hk hl j task htask hstage⟩
  | draining pending=>
   simp only [hl] at ht ⊢
   exact ht
 keys:=nodup_remove h.keys key
 fresh:=h.fresh
 idle:=h.idle
 settled:=h.settled
end

variable {io:Output Writer}
lemma Sound.end_task (h:Sound server s) (ht:s.tasks i=some task) {stage:TaskStage} (hs:stage.ended=true)
 (hfr:Framed io) (hh:io.handed=s.io.handed)
 (how:io.stage (.task i)=.idle) (ho:∀w,w≠.task i → io.stage w=s.io.stage w) :
 Sound server { setStage s i stage with io } := by
 refine h.of_task stage ht rfl rfl rfl rfl hfr ?_ ho (fun hne=>absurd how hne) rfl (fun _=>hs)
  (fun hne=>by simp [hs] at hne)
 rw [hh]
 exact h.handed

lemma Sound.remove_task (h:Sound server s) (ht:s.tasks i=some task) (hs:task.stage=.removing)
 (hc:∀j,s.inflight.lookup task.key=some j → j=i) : Sound server (finish s i task.key) := by
 have hf:=h.end_task ht (by rfl:TaskStage.ended .finished=true) h.framed rfl
  (h.task_idle ht (by simp [hs])) fun _ _=>rfl
 refine hf.remove_handle task.key s.unread fun hl j task' ht' hs' hk=>?_
 have hj:(task.key,j)∈s.inflight:=by
  have htr:Tracked s task'.key j:=hf.live j task' ht' hs'
  have hr:s.loop=.reading:=hl
  simpa only [Tracked,hr,hk] using htr
 cases hlk : s.inflight.lookup task.key with
 | none=>simpa using lookup_eq_none_iff.1 hlk _ hj
 | some k=>
  obtain rfl:=hc k hlk
  obtain rfl:=h.handle_unique hj (mem_of_lookup hlk)
  have hsl:(setStage s j .finished).tasks j=some { task with stage:=.finished }:=by
   simp [setStage,ht]
  obtain rfl:=Option.some.inj (hsl.symm.trans ht')
  cases hs'

lemma Sound.abort_task (h:Sound server s) (hm:¬MidWrite s.io (.task i)) : Sound server (abort s i) := by
 have ho:∀w,w≠.task i → (s.io.abandon (.task i)).stage w=s.io.stage w:=
  fun w hw=>s.io.abandon_stage hw
 have how:(s.io.abandon (.task i)).stage (.task i)=.idle:=s.io.abandon_stage_self
 cases ht : s.tasks i with
 | none=>
  refine h.of_io ?_ (h.framed.abandon hm) h.handed ?_ fun hl=>?_
  · have hts:Function.update s.tasks i none=s.tasks:=by
     rw [←ht]
     exact Function.update_eq_self i s.tasks
    simp [abort,ht,hts]
  · intro j hj
    by_cases hji : j=i
    · subst hji
      exact absurd how hj
    · rwa [←ho _ (by simpa using hji)]
  · exact (ho .reader (by simp)).trans (h.idle hl)
 | some task=>
  refine h.of_task task.stage.aborted ht ?_ rfl rfl rfl (h.framed.abandon hm) h.handed ho
   (fun hne=>absurd how hne) rfl (fun _=>task.stage.ended_aborted)
   (fun hne=>by simp [task.stage.ended_aborted] at hne)
  simp [abort,setStage,ht]

lemma abort_ended (ht:(abort s i).tasks j=some task) (hs:task.stage.ended=false) : j≠i := by
 rintro rfl
 have hsl:(abort s j).tasks j=(s.tasks j).map fun task=>{ task with stage:=task.stage.aborted }:=
  Function.update_self ..
 rw [hsl,Option.map_eq_some_iff] at ht
 obtain ⟨task',-,rfl⟩:=ht
 simp [task'.stage.ended_aborted] at hs

lemma not_midWrite_abort (hm:¬MidWrite s.io (.task j)) : ¬MidWrite (abort s i).io (.task j) := by
 rintro ⟨written,rest,hs,hw⟩
 by_cases hji : Writer.task j=.task i
 · have hi:(abort s i).io.stage (.task j)=.idle:=by
    rw [hji]
    exact s.io.abandon_stage_self
   rw [hi] at hs
   cases hs
 · exact hm ⟨written,rest,(s.io.abandon_stage hji).symm.trans hs,hw⟩

lemma Sound.abort_all (h:Sound server s) (ha:List ℕ) (hm:∀j∈ha,¬MidWrite s.io (.task j)) :
 Sound server (ha.foldl abort s) ∧ (ha.foldl abort s).loop=s.loop ∧
  (ha.foldl abort s).inflight=s.inflight ∧
  (ha.foldl abort s).io.stage .reader=s.io.stage .reader := by
 induction ha generalizing s with
 | nil=>exact ⟨h,rfl,rfl,rfl⟩
 | cons j ha ih=>
  obtain ⟨hj,hrs⟩:=forall_mem_cons.1 hm
  obtain ⟨hs,hl,hi,hr⟩:=ih (h.abort_task hj)
   fun k hk=>not_midWrite_abort (hrs k hk)
  exact ⟨hs,hl,hi,hr.trans (s.io.abandon_stage (by simp))⟩

lemma mem_registered (h:Tracked s key i) : i∈registered s := by
 unfold Tracked at h
 unfold registered
 cases hl : s.loop with
 | reading=>
  simp only [hl] at h ⊢
  exact mem_map_of_mem h
 | draining pending=>
  simp only [hl] at h ⊢
  exact h

lemma Sound.drain (h:Sound server s) (hi:s.io.stage .reader=.idle) {ha:List ℕ}
 (hh:∀key j,Tracked s key j → j∈ha) :
 Sound server { s with loop:=.draining ha,inflight:=[] } where
 framed:=h.framed
 handed:=h.handed
 replying:=h.replying
 live j task htask hstage:=hh task.key j (h.live j task htask hstage)
 keys:=nodup_nil
 fresh:=h.fresh
 idle _:=hi
 settled hr:=⟨by simp,(h.settled hr).2⟩

lemma Sound.read_call (h:Sound server s) (hl:s.loop=.reading) (rest:List Line)
 (hf:s.inflight.lookup key=none) : Sound server (readLine server s rest (.call key)) := by
 have hu:∀entry∈s.inflight,entry.1≠key:=by
  intro entry hen heq
  have hne:=lookup_eq_none_iff.1 hf entry hen
  simp [heq] at hne
 have hol:∀j task,s.tasks j=some task → j≠s.next:=by
  rintro j task ht rfl
  rw [h.fresh s.next (Nat.le_refl _)] at ht
  cases ht
 have hsl:(readLine server s rest (.call key)).tasks s.next=some { key }:=
  Function.update_self ..
 have ho:∀j,j≠s.next → (readLine server s rest (.call key)).tasks j=s.tasks j:=
  fun j hj=>Function.update_of_ne hj _ _
 refine ⟨h.framed,h.handed,?_,?_,?_,?_,h.idle,?_⟩
 · intro j hj
   obtain ⟨task,ht,hs⟩:=h.replying j hj
   exact ⟨task,(ho j (hol j task ht)).trans ht,hs⟩
 · intro j task ht hs
   have hrd:(readLine server s rest (.call key)).loop=.reading:=hl
   simp only [Tracked,hrd]
   by_cases hj : j=s.next
   · subst hj
     rw [hsl,Option.some.injEq] at ht
     subst ht
     exact mem_cons_self
   · rw [ho j hj] at ht
     have htr:=h.live j task ht hs
     simp only [Tracked,hl] at htr
     exact mem_cons_of_mem _ (mem_remove.2 ⟨htr,hu _ htr⟩)
 · refine nodup_cons.2 ⟨?_,nodup_remove h.keys key⟩
   intro hm
   obtain ⟨entry,hen,heq⟩:=mem_map.1 hm
   exact (mem_remove.1 hen).2 heq
 · intro j hj
   have hlt:s.next+1≤j:=hj
   rw [ho j (by omega)]
   exact h.fresh j (by omega)
 · intro hr
   exact absurd hl (h.settled hr).1

lemma Sound.read_step (h:Sound server s) (hlp:s.loop=.reading)
 (hi:s.io.stage .reader=.idle) (line:Line) (rest:List Line) (hc:Clean server s (.read line)) :
 Sound server (readLine server s rest (lineEffect server line)) := by
 simp only [Clean] at hc
 cases hef : lineEffect server line with
 | none=>exact h.of_io rfl h.framed h.handed (fun _ hj=>hj) h.idle
 | reply response=>
  refine h.of_io rfl (h.framed.start hi _) (h.handed_start .reader response) ?_ ?_
  · intro j hj
    rwa [←s.io.start_stage (frame server response) (by simp:Writer.task j≠.reader)]
  · exact fun hne=>absurd hlp hne
 | cancel key=>
  simp only [hef] at hc
  cases hl : s.inflight.lookup key with
  | none=>
   simp only [readLine,hl]
   exact h.of_io rfl h.framed h.handed (fun _ hj=>hj) h.idle
  | some i=>
   simp only [readLine,hl]
   refine (h.abort_task (hc i hl)).remove_handle key rest ?_
   intro _ j task ht hs hk
   have hji:=abort_ended ht hs
   have ho:s.tasks j=some task:=(Function.update_of_ne hji _ _).symm.trans ht
   have hj:(task.key,j)∈s.inflight:=by
    simpa only [Tracked,hlp] using h.live j task ho hs
   rw [hk] at hj
   exact hji (h.handle_unique hj (mem_of_lookup hl))
 | call key=>
  simp only [hef] at hc
  exact h.read_call hlp rest hc

lemma Sound.step {e:Event} (h:Sound server s) (hst:Step server s e t)
 (hc:Clean server s e) : Sound server t := by
 cases hst with
 | @read line rest hl hi hline=>exact h.read_step hl hi line rest hc
 | endOfInput hl hi hen=>exact h.drain hi fun key j=>mem_registered
 | shutdown hi=>
  obtain ⟨hsn,hl,hin,hrd⟩:=h.abort_all (registered s) hc
  refine hsn.drain (hrd.trans hi) fun key j ht=>?_
  apply @mem_registered s j key
  unfold Tracked at ht ⊢
  rwa [hl,hin] at ht
 | @dispatched i task hts hs response=>
  have hi:=h.task_idle hts (by simp [hs])
  refine h.of_task .replying hts rfl rfl rfl rfl (h.framed.start hi _)
   (h.handed_start (.task i) response) (fun w hw=>s.io.start_stage _ hw) (fun _=>rfl) rfl ?_ fun _=>by rw [hs];rfl
  exact fun hr=>absurd hr (h.not_returned hts (by rw [hs];rfl))
 | silent hts hs=>exact h.end_task hts rfl h.framed rfl (h.task_idle hts (by simp [hs])) fun _ _=>rfl
 | @remove i task hts hs=>exact h.remove_task hts hs fun j=>hc task j hts hs
 | @acquire w body hwt hlc=>
  refine h.of_io rfl (h.framed.acquire hlc hwt) h.handed ?_ ?_
  · intro j hj
    by_cases hw : Writer.task j=w
    · rw [hw,hwt]
      simp
    · rwa [←s.io.acquire_stage body hw]
  · intro hl
    have hrd:=h.idle hl
    have hw:Writer.reader≠w:=by
     rintro rfl
     rw [hwt] at hrd
     cases hrd
    exact (s.io.acquire_stage body hw).trans hrd
 | @poll w written chunk rest hwr hch=>
  refine h.of_io rfl (h.framed.poll hwr) h.handed ?_ ?_
  · intro j hj
    by_cases hw : Writer.task j=w
    · rw [hw,hwr]
      simp
    · rwa [←s.io.poll_stage written chunk rest hw]
  · intro hl
    have hrd:=h.idle hl
    have hw:Writer.reader≠w:=by
     rintro rfl
     rw [hwr] at hrd
     cases hrd
    exact (s.io.poll_stage written chunk rest hw).trans hrd
 | flushReader hf=>
  refine h.of_io rfl (h.framed.flush hf) h.handed ?_ fun _=>s.io.flush_stage_self
  intro j hj
  rwa [←s.io.flush_stage (by simp:Writer.task j≠.reader)]
 | flushTask hts hf=>
  exact h.end_task hts rfl (h.framed.flush hf) rfl s.io.flush_stage_self fun w hw=>s.io.flush_stage hw
 | @exit pending hl hd=>
  refine { h with settled:=fun _=>⟨by simp [hl],fun j task hts=>?_⟩ }
  by_contra hs
  have ht:=h.live j task hts (by simpa using hs)
  simp only [Tracked,hl] at ht
  rw [hd j ht task hts] at hs
  exact hs rfl

lemma sound_run {input:List Line} (hr:Run server (Clean server) { unread:=input } s) :
 Sound server s := by
 induction hr with
 | refl=>exact sound_initial input
 | next _ hs hc ih=>exact ih.step hs hc

/-- The bytes are complete lines, each of them a response some writer was started with. -/
def WellFramed (server:Server Reply) (io:Output Writer) : Prop :=
 ∃responses : List Reply,io.out=responses.flatMap (frame server) ∧
  ∀response∈responses,frame server response∈io.handed

lemma wellFramed_of_bodies {bodies:List Bytes}
 (hh:∀body∈io.handed,∃response,body=frame server response) (hb:∀body∈bodies,body∈io.handed) :
 ∃responses : List Reply,bodies.flatten=responses.flatMap (frame server) ∧
  ∀response∈responses,frame server response∈io.handed := by
 induction bodies with
 | nil=>exact ⟨[],rfl,by simp⟩
 | cons body bodies ih=>
  obtain ⟨hbd,hrs⟩:=forall_mem_cons.1 hb
  obtain ⟨response,rfl⟩:=hh body hbd
  obtain ⟨responses,heq,hr⟩:=ih hrs
  refine ⟨response::responses,?_,forall_mem_cons.2 ⟨hbd,hr⟩⟩
  rw [flatten_cons,flatMap_cons,heq]

/-- In every run in which no abort strikes a response under way, no call takes over a key in flight and
  no task removes another's handle, the output is well framed once the session has returned. -/
theorem output_framed {input:List Line} (hrun:Run server (Clean server) { unread:=input } s)
  (hreturned:s.returned=true) : WellFramed server s.io := by
 have h:=sound_run hrun
 obtain ⟨hl,hd⟩:=h.settled hreturned
 have hi:∀w,s.io.stage w=.idle := by
  intro w
  cases w with
  | reader=>exact h.idle hl
  | task i=>
   by_contra hs
   obtain ⟨task,ht,hr⟩:=h.replying i hs
   have he:=hd i task ht
   rw [hr] at he
   cases he
 obtain ⟨bodies,ho,hb⟩:=h.framed.complete hi
 unfold WellFramed
 rw [ho]
 exact wellFramed_of_bodies h.handed hb
end

def objectServer : Server Unit where
 numbers:=exactSerde
 display:=fun _=>[]
 parseError:=()
 invalidRequest:=()
 dispatch:=fun _=>some ()
 encode:=fun _=>[123,125]

def callLine : Line :=
 .data (some (.object [(text "jsonrpc",.string (text "2.0")),(text "id",.string (text "a")),
  (text "method",.string (text "tools/call"))]))

def cancelLine : Line :=
 .data (some (.object [(text "jsonrpc",.string (text "2.0")),
  (text "method",.string (text "notifications/cancelled")),
  (text "params",.object [(text "requestId",.string (text "a"))])]))

lemma callLine_effect : lineEffect objectServer callLine=.call (text "str:") := rfl

lemma cancelLine_effect : lineEffect objectServer cancelLine=.cancel (text "str:") := rfl

theorem answered_call_framed : ∃s,Run objectServer (Clean objectServer) { unread:=[callLine] } s ∧
  s.returned=true ∧ s.io.out=[123,125,10] ∧ WellFramed objectServer s.io := by
 have hst:Run objectServer (Clean objectServer) { unread:=[callLine] }
   { unread:=[callLine] }:=.refl
 have hr:=hst.next (.read rfl rfl rfl) rfl
 have hd:=hr.next (@Step.dispatched _ _ _ 0 { key:=text "str:" } rfl rfl ())
  fun _ _ ht hs=>by cases ht;cases hs
 have ha:=hd.next (@Step.acquire _ _ _ (.task 0) [123,125,10] rfl rfl) trivial
 have hf:=ha.next
  (@Step.poll _ _ _ (.task 0) [] [123] [125,10] rfl (by simp)) trivial
 have hs:=hf.next
  (@Step.poll _ _ _ (.task 0) [123] [125,10] [] rfl (by simp)) trivial
 have hfl:=hs.next
  (@Step.flushTask _ _ _ 0 { key:=text "str:",stage:=.replying } rfl rfl) trivial
 have hrm:=hfl.next (@Step.remove _ _ _ 0 { key:=text "str:",stage:=.removing } rfl rfl)
  fun _ _ ht _ hl=>by cases ht;exact (Option.some.inj hl).symm
 have hen:=hrm.next (.endOfInput rfl rfl rfl) trivial
 have hex:=hen.next (@Step.exit _ _ _ [] rfl (by simp)) trivial
 exact ⟨_,hex,rfl,rfl,output_framed hex rfl⟩

/-- The call is cancelled after the first byte of its response, which stays in the output. -/
theorem cancelled_call_unframed : ∃s,
  Run objectServer (fun _ _=>True) { unread:=[callLine,cancelLine] } s ∧
   s.returned=true ∧ s.io.out=[123] ∧ ¬WellFramed objectServer s.io := by
 have hs:Run objectServer (fun _ _=>True) { unread:=[callLine,cancelLine] }
   { unread:=[callLine,cancelLine] }:=.refl
 have hr:=hs.next (.read rfl rfl rfl) trivial
 have hd:=hr.next (@Step.dispatched _ _ _ 0 { key:=text "str:" } rfl rfl ()) trivial
 have ha:=hd.next (@Step.acquire _ _ _ (.task 0) [123,125,10] rfl rfl) trivial
 have hfr:=ha.next
  (@Step.poll _ _ _ (.task 0) [] [123] [125,10] rfl (by simp)) trivial
 have hc:=hfr.next (.read rfl rfl rfl) trivial
 have hen:=hc.next (.endOfInput rfl rfl rfl) trivial
 have hex:=hen.next (@Step.exit _ _ _ [] rfl (by simp)) trivial
 refine ⟨_,hex,rfl,rfl,?_⟩
 rintro ⟨responses,ho,-⟩
 have hf:[123]=responses.flatMap (frame objectServer):=ho
 cases responses with
 | nil=>cases hf
 | cons response responses=>
  have hl:=congrArg length hf
  simp [frame,objectServer] at hl
end InvariantProtocol.RustStdio
