import InvariantProtocol.ByteText
import InvariantProtocol.ToolStream
/-! The byte budget of a streaming tool: the count kept while chunks arrive is the length of the JSON
document that holds them. -/
namespace InvariantProtocol.StreamBudget
open List ByteText ToolStream

section
variable {α R:Type} (size:List α → ℕ) (L:ℕ) (chunks:List α)
 (After:List α → List α → ℕ → Prop) (Stopped:List α → Prop) (call full limit:R)
/-- A loop over chunks with a limit: `After` is its state between two parts of the chunks, with the count
  it has then, and `Stopped` its end with these chunks accepted. -/
structure Budgeted : Prop where
 counted : ∀pre post,chunks=pre++post → size pre≤L → After pre post (size pre)
 returned : call=full ↔ size chunks≤L
 refused : L<size chunks → call=limit ∧ (L<size [] ∨
  ∃pre c post,chunks=pre++c::post ∧ size pre≤L ∧ L<size (pre++[c]) ∧ Stopped pre)

variable {size L chunks After Stopped call full limit}
lemma first_over {pre post:List α} (hp:size pre≤L) (ho:L<size (pre++post)) :
 ∃front c rest,pre++post=front++c::rest ∧ size front≤L ∧ L<size (front++[c]) := by
 induction post generalizing pre with
 | nil=>
  rw [append_nil] at ho
  omega
 | cons c post ih=>
  by_cases hn : L<size (pre++[c])
  · exact ⟨pre,c,post,rfl,hp,hn⟩
  · have hs:pre++c::post=pre++[c]++post:=by simp
    rw [hs] at ho ⊢
    exact ih (Nat.le_of_not_lt hn) ho

lemma size_nil_le (hg:∀pre c,size pre ≤ size (pre++[c])) (xs:List α) : size [] ≤ size xs := by
 induction xs using reverseRecOn with
 | nil=>exact Nat.le_refl _
 | append_singleton xs c ih=>exact Nat.le_trans ih (hg xs c)

lemma Budgeted.of_steps (hg:∀pre c,size pre ≤ size (pre++[c])) (hne:full≠limit)
 (start:size []≤L → After [] chunks (size []))
 (next:∀pre c post,chunks=pre++c::post → After pre (c::post) (size pre) → size (pre++[c])≤L →
  After (pre++[c]) post (size (pre++[c])))
 (stop:∀pre c post,chunks=pre++c::post → After pre (c::post) (size pre) → L<size (pre++[c]) → Stopped pre)
 (finish:size []≤L → size chunks≤L → After chunks [] (size chunks) → call=full)
 (early:L<size [] → call=limit) (refuse:size []≤L → ∀pre,Stopped pre → call=limit) :
 Budgeted size L chunks After Stopped call full limit := by
 have hcn:∀pre post,chunks=pre++post → size pre≤L → After pre post (size pre):=by
  intro pre
  induction pre using reverseRecOn with
  | nil=>
   rintro post rfl hle
   exact start hle
  | append_singleton pre c ih=>
   intro post hc hle
   rw [append_assoc,singleton_append] at hc
   exact next pre c post hc (ih _ hc (Nat.le_trans (hg pre c) hle)) hle
 have hr:L<size chunks → call=limit ∧ (L<size [] ∨
   ∃pre c post,chunks=pre++c::post ∧ size pre≤L ∧ L<size (pre++[c]) ∧ Stopped pre):=by
  intro ho
  by_cases hem : L<size []
  · exact ⟨early hem,.inl hem⟩
  · obtain ⟨pre,c,post,hc,hle,hlt⟩:=@first_over α size L [] chunks (Nat.le_of_not_lt hem) ho
    have hs:=stop pre c post hc (hcn pre (c::post) hc hle) hlt
    exact ⟨refuse (Nat.le_of_not_lt hem) pre hs,.inr ⟨pre,c,post,hc,hle,hlt,hs⟩⟩
 refine ⟨hcn,⟨fun hf=>?_,fun hle=>?_⟩,hr⟩
 · by_contra ho
   exact hne (hf.symm.trans (hr (Nat.lt_of_not_le ho)).1)
 · exact finish (Nat.le_trans (size_nil_le hg chunks) hle) hle
    (hcn chunks [] (append_nil _).symm hle)
end

/-- How a runtime writes JSON: its string literals and separators, whether the members of a map are
  sorted by their keys, and whether those of the response are. -/
structure Wire where
 quote : String → Bytes
 comma : Bytes
 colon : Bytes
 sorted : Bool
 idFirst : Bool

namespace Wire

variable (w:Wire)
def array (items:List Bytes) : Bytes:=[91]++w.comma.intercalate items++[93]

def object (members:List (String×Bytes)) : Bytes :=
 [123]++w.comma.intercalate (members.map fun m=>w.quote m.1++w.colon++m.2)++[125]

def textBlock (text:String) : Bytes :=
 w.object (if w.sorted then [("text",w.quote text),("type",w.quote "text")]
  else [("type",w.quote "text"),("text",w.quote text)])

def result (r:CallResult Bytes) : Bytes :=
 let isError:=if r.isError then [("isError",utf8 "true".toList)] else []
 let error:=r.error.toList.map fun payload=>("error",payload)
 w.object (("content",w.array (r.content.map w.textBlock))::
  if w.sorted then error++isError else isError++error)

def response (r:Response Bytes Bytes) : Bytes :=
 let version:=("jsonrpc",w.quote "2.0")
 w.object ((if w.idFirst then [("id",r.id),version] else [version,("id",r.id)])++
  [("result",w.result r.result)])

def sized {Msg Err:Type} (rt:Runtime Msg Err Bytes Bytes) : Runtime Msg Err Bytes Bytes :=
 { rt with
  responseSize:=fun r=>(w.response r).length
  blockSize:=fun text=>(w.textBlock text).length }

def encodedSize (id:Bytes) (texts:List String) : ℕ:=(w.response ⟨id,{ content:=texts }⟩).length

lemma length_joined (sep:Bytes) (items:List Bytes) (x:Bytes) : (sep.intercalate (items++[x])).length=
  (sep.intercalate items).length+x.length+if items=[] then 0 else sep.length := by
 induction items with
 | nil=>simp [intercalate]
 | cons first items ih=>
  cases items with
  | nil=>
   simp [intercalate]
   omega
  | cons second items=>
   simp only [intercalate,cons_append,intersperse_cons_cons,flatten_cons,length_append,reduceCtorEq,if_false] at ih ⊢
   omega

lemma length_object (front:List (String×Bytes)) (k:String) :
 ∃c,∀v,(w.object (front++[(k,v)])).length=c+v.length := by
 refine ⟨(w.object (front++[(k,[])])).length,fun v=>?_⟩
 simp only [object,map_append,map_singleton,length_append,length_joined,length_nil]
 omega

lemma encodedSize_snoc (id:Bytes) (texts:List String) (text:String) : w.encodedSize id (texts++[text])=
  w.encodedSize id texts+(w.textBlock text).length+if texts=[] then 0 else w.comma.length := by
 obtain ⟨c,hc⟩:=w.length_object (if w.idFirst then [("id",id),("jsonrpc",w.quote "2.0")]
  else [("jsonrpc",w.quote "2.0"),("id",id)]) "result"
 obtain ⟨d,hd⟩:=w.length_object [] "content"
 have hs:∀texts,w.encodedSize id texts=c+(d+(w.array (texts.map w.textBlock)).length):=by
  intro texts
  rw [←hd,←hc]
  simp [encodedSize,response,result]
 simp only [hs,array,map_append,map_singleton,length_append,length_joined,map_eq_nil_iff]
 omega
end Wire

section
variable {Msg Err Req:Type} (w:Wire) (rt:Runtime Msg Err Bytes Bytes) (L:ℕ) (id:Bytes)

abbrev Chunks (Msg:Type):=List (Msg×String)

def texts (chunks:Chunks Msg) : List String:=chunks.map Prod.snd

def items (chunks:Chunks Msg) : List (Except Err Msg):=chunks.map fun c=>.ok c.1

def size (chunks:Chunks Msg) : ℕ:=w.encodedSize id (texts chunks)

def full (chunks:Chunks Msg) : Except Err (Response Bytes Bytes):=.ok ⟨id,{ content:=texts chunks }⟩

/-- The budget of the loop that Python, TypeScript and Rust share, for a call of the runtime. -/
def CollectBudget (separator:ℕ) (chunks:Chunks Msg) (call:Except Err (Response Bytes Bytes)) : Prop :=
 Budgeted (size w id) L chunks
  (fun pre post count=>
   collect (w.sized rt) (some L) separator (items chunks) [] (emptySize (w.sized rt) id)=
    collect (w.sized rt) (some L) separator (items post) (texts pre) count)
  (fun pre=>
   collect (w.sized rt) (some L) separator (items chunks) [] (emptySize (w.sized rt) id)=
    (texts pre,some .limit))
  call (full id chunks) (.error rt.limitError)

/-- What a call answers once its stream has ended. The runtimes differ in what they do with a result
  and in the texts a failed call keeps. -/
def ended (finish:Response Bytes Bytes → Except Err (Response Bytes Bytes)) (kept:List String → List String) :
  List String×Option (Stop Err) → Except Err (Response Bytes Bytes)
 | (_,some .limit)=>.error rt.limitError
 | (content,some (.failed err))=>finish ⟨id,errorResult (w.sized rt) (kept content) err⟩
 | (content,none)=>finish ⟨id,{ content }⟩

def goEnded (run:Option Err×Go.Collected Err) : Except Err (Response Bytes Bytes) :=
 if run.2.limitExceeded then .error rt.limitError
 else match run.1 with
  | some err=>.ok ⟨id,errorResult (w.sized rt) run.2.content err⟩
  | none=>.ok ⟨id,{ content:=run.2.content }⟩

variable {w rt L id} {chunks:Chunks Msg} {call:Except Err (Response Bytes Bytes)}
lemma size_snoc (pre:Chunks Msg) (c:Msg×String) :
 size w id (pre++[c])=size w id pre+(w.textBlock c.2).length+if texts pre=[] then 0 else w.comma.length := by
 rw [size,texts,map_append,map_singleton,w.encodedSize_snoc]
 rfl

lemma exceeds_some (n:ℕ) : exceeds (some L) n=decide (L<n) := rfl

lemma collect_chunk (pre post:Chunks Msg) {c:Msg×String} (hr:rt.render c.1=.ok c.2) :
 collect (w.sized rt) (some L) w.comma.length (items (c::post)) (texts pre) (size w id pre)=
  if L<size w id (pre++[c]) then (texts pre,some .limit)
  else collect (w.sized rt) (some L) w.comma.length (items post) (texts (pre++[c])) (size w id (pre++[c])) := by
 have ht:(w.sized rt).render c.1=.ok c.2:=hr
 simp only [items,map_cons,collect,ht,exceeds_some,decide_eq_true_eq,size_snoc]
 simp only [texts,map_append,map_singleton]
 rfl

/-- A runtime that answers what `E` makes of the outcome of the loop. -/
theorem collectBudget_of_call (hr:∀c∈chunks,rt.render c.1=.ok c.2)
 {E:List String×Option (Stop Err) → Except Err (Response Bytes Bytes)}
 (hcl:call=if exceeds (some L) (emptySize (w.sized rt) id) then .error rt.limitError else
  E (collect (w.sized rt) (some L) w.comma.length (items chunks) [] (emptySize (w.sized rt) id)))
 (hl:∀content,E (content,some .limit)=.error rt.limitError)
 (hd:size w id chunks≤L → E (texts chunks,none)=full id chunks) :
 CollectBudget w rt L id w.comma.length chunks call := by
 have hem:exceeds (some L) (emptySize (w.sized rt) id)=decide (L<size w id ([] : Chunks Msg)):=rfl
 rw [hem] at hcl
 refine Budgeted.of_steps (fun pre c=>?_) (fun h=>by cases h) (fun _=>rfl) ?_ ?_ (fun hs hle ha=>?_)
  (fun hlt=>?_) fun hs pre hst=>?_
 · rw [size_snoc]
   omega
 · intro pre c post hch ha hle
   have hc:=hr c (by simp [hch])
   rw [ha,collect_chunk pre post hc,if_neg (Nat.not_lt.2 hle)]
 · intro pre c post hch ha hlt
   have hc:=hr c (by simp [hch])
   rw [ha,collect_chunk pre post hc,if_pos hlt]
 · rw [hcl,if_neg (by simpa using hs),ha]
   exact hd hle
 · rw [hcl,if_pos (by simpa using hlt)]
 · rw [hcl,if_neg (by simpa using hs),hst]
   exact hl _

lemma reported_items (chunks:Chunks Msg) : reported (w.sized rt) (items chunks)=items chunks := by
 simp [reported,items,Except.mapError]

/-- The last check of TypeScript and Rust passes what the loop has let through. -/
theorem bounded_full (hle:size w id chunks≤L) :
 bounded (w.sized rt) (some L) ⟨id,{ content:=texts chunks }⟩=full id chunks := by
 have hs:(w.sized rt).responseSize ⟨id,{ content:=texts chunks }⟩=size w id chunks:=rfl
 simp only [bounded,exceeds_some,hs,Nat.not_lt.2 hle,decide_false,Bool.false_eq_true,if_false]
 rfl

lemma CollectBudget.passes {separator:ℕ} (hb:CollectBudget w rt L id separator chunks call)
 (hst:emptySize (w.sized rt) id≤L) {content:List String}
 (hd:collect (w.sized rt) (some L) separator (items chunks) [] (emptySize (w.sized rt) id)=(content,none)) :
 bounded (w.sized rt) (some L) ⟨id,{ content }⟩=.ok ⟨id,{ content }⟩ := by
 by_cases hle : size w id chunks≤L
 · have hen:=hb.counted chunks [] (append_nil _).symm hle
   cases hd.symm.trans hen
   exact bounded_full hle
 · obtain ⟨-,hem|⟨pre,-,-,-,-,-,hs⟩⟩:=hb.refused (Nat.lt_of_not_le hle)
   · exact absurd hst (Nat.not_le.2 hem)
   · cases hd.symm.trans hs

variable {req:Req}
lemma python_budget (hc:w.comma.length=2) {tool:Req → List (Except Err Msg)}
 (hr:∀c∈chunks,rt.render c.1=.ok c.2) (ht:tool req=items chunks) :
 CollectBudget w rt L id 2 chunks (Python.callStreamTool (w.sized rt) (some L) id (.ok req) tool) := by
 rw [←hc]
 refine collectBudget_of_call hr (E := ended w rt id .ok fun content=>content) ?_ (fun _=>rfl) fun _=>rfl
 rw [Python.callStreamTool,Python.invokeStream,ht,reported_items,hc]
 rfl

lemma typescript_budget (hc:w.comma.length=1) {tool:Req → List (Except Err Msg)}
 (hr:∀c∈chunks,rt.render c.1=.ok c.2) (ht:tool req=items chunks) :
 CollectBudget w rt L id 1 chunks (TypeScript.mcpCallTool (w.sized rt) (some L) id (.ok req) tool) := by
 rw [←hc]
 refine collectBudget_of_call hr (E := ended w rt id (bounded (w.sized rt) (some L)) fun _=>[]) ?_
  (fun _=>rfl) bounded_full
 simp only [TypeScript.mcpCallTool,TypeScript.collected,TypeScript.invokeStreamTool,ht,reported_items,hc]
 split_ifs with hem
 · rfl
 · rfl

lemma rust_budget (hc:w.comma.length=1) {tool:Req → Except Err (List (Except Err Msg))}
 (hr:∀c∈chunks,rt.render c.1=.ok c.2) (ht:tool req=.ok (items chunks)) :
 CollectBudget w rt L id 1 chunks (Rust.streamToolsCall (w.sized rt) (some L) id (.ok req) tool) := by
 rw [←hc]
 refine collectBudget_of_call hr (E := ended w rt id (bounded (w.sized rt) (some L)) fun content=>content) ?_
  (fun _=>rfl) bounded_full
 simp only [Rust.streamToolsCall,Rust.recoverResponseStream,ht,reported_items,hc]
 rfl

/-- The handler sends these messages, as long as they are taken, and returns without an error. -/
inductive Sends : Go.Handler Msg Err → List Msg → Prop where
 | done : Sends (.done none none) []
 | send {msg:Msg} {next:Option Err → Go.Handler Msg Err} {sent:List Msg}
   (rest:Sends (next none) sent) : Sends (.send none msg next) (msg::sent)

def GoBudget (w:Wire) (rt:Runtime Msg Err Bytes Bytes) (L:ℕ) (id:Bytes) (handler:Go.Handler Msg Err)
  (chunks:Chunks Msg) (call:Except Err (Response Bytes Bytes)) : Prop :=
 Budgeted (size w id) L chunks
  (fun pre post count=>∃rest,Sends rest (post.map Prod.fst) ∧
   Go.invokeStream (w.sized rt) L handler { encodedSize:=emptySize (w.sized rt) id }=
    Go.invokeStream (w.sized rt) L rest { content:=texts pre,encodedSize:=count })
  (fun pre=>
   (Go.invokeStream (w.sized rt) L handler { encodedSize:=emptySize (w.sized rt) id }).2=
    { content:=texts pre,encodedSize:=size w id pre,limitExceeded:=true,sendErr:=some rt.limitError })
  call (full id chunks) (.error rt.limitError)

/-- After a failed send nothing is collected, whatever the handler does. -/
theorem invokeStream_failed {limit:ℤ} (handler:Go.Handler Msg Err) {s:Go.Collected Err} {err:Err}
 (hs:s.sendErr=some err) : (Go.invokeStream rt limit handler s).2=s := by
 induction handler with
 | done result contextErr=>rfl
 | send contextErr msg next ih=>
  cases contextErr with
  | some contextErr=>exact ih _
  | none=>
   have hsn:Go.sendMsg rt limit msg s=(some err,s):=by simp [Go.sendMsg,hs]
   rw [Go.invokeStream,hsn]
   exact ih _

lemma sendMsg_chunk (hp:0<L) (pre:Chunks Msg) {c:Msg×String} (hr:rt.render c.1=.ok c.2)
 (hc:w.comma.length=1) :
 Go.sendMsg (w.sized rt) L c.1 { content:=texts pre,encodedSize:=size w id pre }=
  if L<size w id (pre++[c]) then
   (some rt.limitError,
    { content:=texts pre,encodedSize:=size w id pre,limitExceeded:=true,sendErr:=some rt.limitError })
  else (none,{ content:=texts (pre++[c]),encodedSize:=size w id (pre++[c]) }) := by
 have ht:(w.sized rt).render c.1=.ok c.2:=hr
 have hn:(size w id pre:ℤ)+(w.textBlock c.2).length+(if texts pre=[] then 0 else 1)=size w id (pre++[c]):=by
  rw [size_snoc,hc]
  split_ifs
  · simp
  · simp
 have hb:(w.sized rt).blockSize c.2=(w.textBlock c.2).length:=rfl
 simp only [Go.sendMsg,Go.sendBlock,ht,Int.natCast_pos.2 hp,if_true,hb,hn,Int.ofNat_lt]
 split_ifs with hlt
 · rfl
 · simp [texts]

lemma go_budget (hcm:w.comma.length=1) (hp:0<L) {tool:Req → Go.Handler Msg Err}
 (hrn:∀c∈chunks,rt.render c.1=.ok c.2) (ht:Sends (tool req) (chunks.map Prod.fst)) :
 GoBudget w rt L id (tool req) chunks (Go.toolsCallStream (w.sized rt) L id (.ok req) tool) := by
 have hl:(0:ℤ)<L:=Int.natCast_pos.2 hp
 have hem:(w.sized rt).responseSize ⟨id,{ content:=[] }⟩=size w id ([] : Chunks Msg):=rfl
 have hcl:size w id ([] : Chunks Msg)≤L → Go.toolsCallStream (w.sized rt) L id (.ok req) tool=
   goEnded w rt id (Go.invokeStream (w.sized rt) L (tool req) { encodedSize:=emptySize (w.sized rt) id }):=by
  intro hle
  simp only [Go.toolsCallStream,hl,true_and,if_true,hem,Int.ofNat_lt,Nat.not_lt.2 hle,if_false]
  rfl
 refine Budgeted.of_steps (fun pre c=>?_) (fun h=>by cases h) (fun _=>⟨tool req,ht,rfl⟩) ?_ ?_ (fun hs hle ha=>?_)
  (fun hlt=>?_) fun hs pre hst=>?_
 · rw [size_snoc]
   omega
 · rintro pre c post hc ⟨rest,hr,ha⟩ hle
   cases hr with
   | @send _ next _ hr=>
    refine ⟨_,hr,ha.trans ?_⟩
    rw [Go.invokeStream,sendMsg_chunk hp pre (hrn c (by simp [hc])) hcm,if_neg (Nat.not_lt.2 hle)]
 · rintro pre c post hc ⟨rest,hr,ha⟩ hlt
   cases hr with
   | @send _ next _ hr=>
    rw [ha,Go.invokeStream,sendMsg_chunk hp pre (hrn c (by simp [hc])) hcm,if_pos hlt]
    exact invokeStream_failed _ rfl
 · obtain ⟨rest,hr,ha⟩:=ha
   cases hr
   rw [hcl hs,ha]
   rfl
 · simp only [Go.toolsCallStream,hl,true_and,hem,Int.ofNat_lt,hlt,if_true]
   rfl
 · rw [hcl hs]
   simp only [goEnded,hst,if_true]
end

variable {Msg Err Req:Type} (quote:String → Bytes)
def goWire : Wire:=⟨quote,[44],[58],true,false⟩

/-- The separators of `json.dumps` have a blank. -/
def pythonWire : Wire:=⟨quote,[44,32],[58,32],false,false⟩

def typescriptWire : Wire:=⟨quote,[44],[58],false,false⟩

/-- The order in which `serde_json` writes members is a parameter. -/
def rustWire (sorted idFirst:Bool) : Wire:=⟨quote,[44],[58],sorted,idFirst⟩

def plainText : Runtime String String Bytes Bytes where
 render:=.ok
 normalize:=id
 message:=id
 payload:=fun s=>utf8 s.toList
 limitError := "encoded MCP response exceeds configured byte limit"
 responseSize:=fun _=>0
 blockSize:=fun _=>0

/-- In every runtime, for a stream that ends normally: the count after some accepted chunks is the
  length of the response with these chunks; the full response is returned exactly if it is within the
  limit, and otherwise the call fails at the first chunk that would exceed it. What TypeScript and Rust check
  at the end has passed before. -/
theorem stream_budget_exact (sorted idFirst:Bool) (rt:Runtime Msg Err Bytes Bytes) (L:ℕ) (hpos:0<L) (id:Bytes) (req:Req)
  (chunks:Chunks Msg) (hrender:∀c∈chunks,rt.render c.1=.ok c.2)
  (handler:Req → Go.Handler Msg Err) (hhandler:Sends (handler req) (chunks.map Prod.fst))
  (stream:Req → List (Except Err Msg)) (hstream:stream req=items chunks)
  (opened:Req → Except Err (List (Except Err Msg))) (hopened:opened req=.ok (items chunks)) :
  GoBudget (goWire quote) rt L id (handler req) chunks
   (Go.toolsCallStream ((goWire quote).sized rt) L id (.ok req) handler) ∧
  CollectBudget (pythonWire quote) rt L id 2 chunks
   (Python.callStreamTool ((pythonWire quote).sized rt) (some L) id (.ok req) stream) ∧
  CollectBudget (typescriptWire quote) rt L id 1 chunks
   (TypeScript.mcpCallTool ((typescriptWire quote).sized rt) (some L) id (.ok req) stream) ∧
  CollectBudget (rustWire quote sorted idFirst) rt L id 1 chunks
   (Rust.streamToolsCall ((rustWire quote sorted idFirst).sized rt) (some L) id (.ok req) opened) ∧
  ∀w∈[typescriptWire quote,rustWire quote sorted idFirst],emptySize (w.sized rt) id≤L → ∀content,
   collect (w.sized rt) (some L) 1 (items chunks) [] (emptySize (w.sized rt) id)=(content,none) →
   bounded (w.sized rt) (some L) ⟨id,{ content }⟩=.ok ⟨id,{ content }⟩ := by
 have ht:=@typescript_budget _ _ _ (typescriptWire quote) rt L id chunks req rfl stream hrender hstream
 have hr:=@rust_budget _ _ _ (rustWire quote sorted idFirst) rt L id chunks req rfl opened hrender hopened
 refine ⟨go_budget rfl hpos hrender hhandler,python_budget rfl hrender hstream,ht,hr,?_⟩
 intro w hw hs content hd
 rcases List.mem_pair.1 hw with rfl|rfl
 · exact ht.passes hs hd
 · exact hr.passes hs hd

def literal (s:String) : Bytes:=[34]++utf8 s.toList++[34]

def greetings : Chunks String:=[("hi","hi"),("again","again")]

def greeter : Go.Handler String String:=.send none "hi" fun _=>.send none "again" fun _=>.done none none

def wires : List Wire:=[goWire literal,pythonWire literal,typescriptWire literal,rustWire literal true true]

lemma wires_sizes : ∀w∈wires,size w [49] (greetings.take 1)≤100 ∧ 100<size w [49] greetings := by decide +kernel

theorem second_chunk_refused : (∀w∈wires,size w [49] (greetings.take 1)≤100) ∧
  Go.toolsCallStream ((goWire literal).sized plainText) (100:ℕ) [49] (.ok ()) (fun _=>greeter)=
   .error plainText.limitError ∧
  Python.callStreamTool ((pythonWire literal).sized plainText) (some 100) [49] (.ok ()) (fun _=>items greetings)=
   .error plainText.limitError ∧
  TypeScript.mcpCallTool ((typescriptWire literal).sized plainText) (some 100) [49] (.ok ())
   (fun _=>items greetings)=.error plainText.limitError ∧
  Rust.streamToolsCall ((rustWire literal true true).sized plainText) (some 100) [49] (.ok ())
   (fun _=>.ok (items greetings))=.error plainText.limitError := by
 obtain ⟨hg,hp,ht,hr,-⟩:=stream_budget_exact literal true true plainText 100 (by decide) [49] () greetings
  (by simp [plainText,greetings]) (fun _=>greeter) (.send (.send .done)) (fun _=>items greetings) rfl
  (fun _=>.ok (items greetings)) rfl
 have hs:=fun w hw=>(wires_sizes w hw).2
 exact ⟨fun w hw=>(wires_sizes w hw).1,(hg.refused (hs _ (by simp [wires]))).1,(hp.refused (hs _ (by simp [wires]))).1,
  (ht.refused (hs _ (by simp [wires]))).1,(hr.refused (hs _ (by simp [wires]))).1⟩
end InvariantProtocol.StreamBudget
