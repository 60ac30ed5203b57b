import InvariantProtocol.GoResult
/-! Server-streaming tools behind `tools/call`. The four runtimes run the tool, collect what it
emits as text blocks, and answer with one buffered result. -/
namespace InvariantProtocol.ToolStream
open GoResult

/-- The result of a call; its `content` holds the texts of the text blocks. -/
structure CallResult (Payload:Type) where
 content : List String
 isError : Bool:=false
 error : Option Payload:=none

structure Response (Id Payload:Type) where
 id : Id
 result : CallResult Payload

/-- What a runtime takes from its protobuf and JSON libraries: the text of a message, the sizes of
  encoded JSON, and what it makes of an error. -/
structure Runtime (Msg Err Id Payload:Type) where
 render : Msg → Except Err String
 normalize : Err → Err
 message : Err → String
 payload : Err → Payload
 limitError : Err
 responseSize : Response Id Payload → ℕ
 blockSize : String → ℕ

variable {Msg Err Id Payload Req:Type}
def errorResult (rt:Runtime Msg Err Id Payload) (content:List String) (err:Err) :
  CallResult Payload :=
 { content:=content++[rt.message err],isError:=true,error:=some (rt.payload err) }

namespace Go

/-- A stream handler of the Go runtime: it sees what `SendMsg` returned. A `send` carries the
  error the context has by then, and so does the end. -/
inductive Handler (Msg Err:Type) where
 | done (result contextErr:Option Err)
 | send (contextErr:Option Err) (msg:Msg) (next:Option Err → Handler Msg Err)

structure Collected (Err:Type) where
 content : List String:=[]
 encodedSize : ℤ:=0
 limitExceeded : Bool:=false
 sendErr : Option Err:=none

variable (rt:Runtime Msg Err Id Payload) (maxResponseBytes:ℤ)
def sendBlock (msg:Msg) (s:Collected Err) : Option Err×Collected Err :=
 match rt.render msg with
 | .error err=>(some err,s)
 | .ok text=>
  if 0 < maxResponseBytes then
   let nextSize:=s.encodedSize+rt.blockSize text+if s.content=[] then 0 else 1
   if maxResponseBytes<nextSize then (some rt.limitError,{ s with limitExceeded:=true })
   else (none,{ s with content:=s.content++[text],encodedSize:=nextSize })
  else (none,{ s with content:=s.content++[text] })

def sendMsg (msg:Msg) (s:Collected Err) : Option Err×Collected Err :=
 match s.sendErr with
 | some err=>(some err,s)
 | none=>
  match sendBlock rt maxResponseBytes msg s with
  | (some err,s)=>(some err,{ s with sendErr:=some err })
  | (none,s)=>(none,s)

def invokeStream : Handler Msg Err → Collected Err → Option Err×Collected Err
 | .done result contextErr,s=>((result.or (s.sendErr.or contextErr)).map rt.normalize,s)
 | .send (some err) _ next,s=>invokeStream (next (some err)) s
 | .send none msg next,s=>
  invokeStream (next (sendMsg rt maxResponseBytes msg s).1) (sendMsg rt maxResponseBytes msg s).2

def toolsCallStream (id:Id) (request:Except Err Req) (tool:Req → Handler Msg Err) :
  Except Err (Response Id Payload) :=
 match request with
 | .error err=>.ok ⟨id,errorResult rt [] err⟩
 | .ok req=>
  let emptySize:=rt.responseSize ⟨id,{ content:=[] }⟩
  if 0 < maxResponseBytes ∧ maxResponseBytes<emptySize then .error rt.limitError
  else
   let run:=invokeStream rt maxResponseBytes (tool req)
    { encodedSize:=if 0 < maxResponseBytes then emptySize else 0 }
   if run.2.limitExceeded then .error rt.limitError
   else match run.1 with
    | some err=>.ok ⟨id,errorResult rt run.2.content err⟩
    | none=>.ok ⟨id,{ content:=run.2.content }⟩

/-- The handler emits these messages, as long as they are taken, and then fails. -/
inductive Emits : Handler Msg Err → List Msg → Err → Prop where
 | done (err:Err) (contextErr:Option Err) : Emits (.done (some err) contextErr) [] err
 | send {msg:Msg} {next:Option Err → Handler Msg Err} {emitted:List Msg} {err:Err}
   (rest:Emits (next none) emitted err) : Emits (.send none msg next) (msg::emitted) err
end Go

section

inductive Stop (Err:Type) where
 | limit
 | failed (err:Err)

def exceeds (limit:Option ℕ) (size:ℕ) : Bool:=limit.any fun l=>l<size

variable (rt:Runtime Msg Err Id Payload) (limit:Option ℕ)
/-- The loop over the items of a stream in Python, TypeScript and Rust; `separator` is the size of
  what encoded JSON has between two blocks. An error item ends it, as does a message that has no
  text. -/
def collect (separator:ℕ) :
  List (Except Err Msg) → List String → ℕ → List String×Option (Stop Err)
 | [],content,_=>(content,none)
 | .error err::_,content,_=>(content,some (.failed err))
 | .ok msg::rest,content,size=>
  match rt.render msg with
  | .error err=>(content,some (.failed err))
  | .ok text=>
   let next:=size+rt.blockSize text+if content=[] then 0 else separator
   if exceeds limit next then (content,some .limit)
   else collect separator rest (content++[text]) next

def reported (items:List (Except Err Msg)) : List (Except Err Msg) :=
 items.map fun item=>item.mapError rt.normalize

def emptySize (id:Id) : ℕ:=rt.responseSize ⟨id,{ content:=[] }⟩

def bounded (response:Response Id Payload) : Except Err (Response Id Payload) :=
 if exceeds limit (rt.responseSize response) then .error rt.limitError else .ok response
end

section
variable (rt:Runtime Msg Err Id Payload) (limit:Option ℕ) (id:Id) (request:Except Err Req)

namespace Python

def invokeStream (items:List (Except Err Msg)) : List (Except Err Msg):=reported rt items

def callStreamTool (tool:Req → List (Except Err Msg)) : Except Err (Response Id Payload) :=
 match request with
 | .error err=>.ok ⟨id,errorResult rt [] err⟩
 | .ok req=>
  if exceeds limit (emptySize rt id) then .error rt.limitError
  else match collect rt limit 2 (invokeStream rt (tool req)) [] (emptySize rt id) with
   | (_,some .limit)=>.error rt.limitError
   | (content,some (.failed err))=>.ok ⟨id,errorResult rt content err⟩
   | (content,none)=>.ok ⟨id,{ content }⟩
end Python

namespace TypeScript

def invokeStreamTool (items:List (Except Err Msg)) : List (Except Err Msg):=reported rt items

/-- The `try` block of `mcpCallTool` for a streaming tool. -/
def collected (tool:Req → List (Except Err Msg)) : List String×Option (Stop Err) :=
 match request with
 | .error err=>([],some (.failed err))
 | .ok req=>
  if exceeds limit (emptySize rt id) then ([],some .limit)
  else collect rt limit 1 (invokeStreamTool rt (tool req)) [] (emptySize rt id)

def mcpCallTool (tool:Req → List (Except Err Msg)) : Except Err (Response Id Payload) :=
 match collected rt limit id request tool with
 | (_,some .limit)=>.error rt.limitError
 -- The `catch` block builds the content anew.
 | (_,some (.failed err))=>bounded rt limit ⟨id,errorResult rt [] err⟩
 | (content,none)=>bounded rt limit ⟨id,{ content }⟩
end TypeScript

namespace Rust

def recoverResponseStream (items:List (Except Err Msg)) : List (Except Err Msg) :=
 reported rt items

/-- The tool may fail before it has a stream. -/
def streamToolsCall (tool:Req → Except Err (List (Except Err Msg))) :
  Except Err (Response Id Payload) :=
 match request with
 | .error err=>.ok ⟨id,errorResult rt [] err⟩
 | .ok req=>
  if exceeds limit (emptySize rt id) then .error rt.limitError
  else match tool req with
   | .error err=>.ok ⟨id,errorResult rt [] (rt.normalize err)⟩
   | .ok items=>
    match collect rt limit 1 (recoverResponseStream rt items) [] (emptySize rt id) with
    | (_,some .limit)=>.error rt.limitError
    | (content,some (.failed err))=>bounded rt limit ⟨id,errorResult rt content err⟩
    | (content,none)=>bounded rt limit ⟨id,{ content }⟩
end Rust
end

/-- The items are the messages and then the error; what follows an error is never asked for. -/
def Streams (items:List (Except Err Msg)) (emitted:List Msg) (err:Err) : Prop :=
 ∃rest,items=emitted.map .ok ++ .error err::rest

def Rust.Emits (opened:Except Err (List (Except Err Msg))) (emitted:List Msg) (err:Err) : Prop :=
 (∃items,opened=.ok items ∧ Streams items emitted err) ∨ opened=.error err ∧ emitted=[]

variable {rt:Runtime Msg Err Id Payload}
lemma reported_ok (msg:Msg) (rest:List (Except Err Msg)) :
 reported rt (.ok msg::rest)=.ok msg::reported rt rest := rfl

lemma reported_error (err:Err) (rest:List (Except Err Msg)) :
 reported rt (.error err::rest)=.error (rt.normalize err)::reported rt rest := rfl

lemma exceeds_none (size:ℕ) : exceeds none size=false := rfl

variable {texts:List String} {s:Go.Collected Err}
lemma collect_streams {items:List (Except Err Msg)} {emitted:List Msg} {err:Err}
 (hi:Streams items emitted err)
 (ht:List.Forall₂ (fun m t=>rt.render m=.ok t) emitted texts) (separator:ℕ)
 (content:List String) (size:ℕ) : collect rt none separator (reported rt items) content size =
  (content++texts,some (.failed (rt.normalize err))) := by
 obtain ⟨rest,rfl⟩:=hi
 induction ht generalizing content size with
 | nil=>simp [reported_error,collect]
 | @cons msg text emitted texts htx _ ih=>
  simp only [List.map_cons,List.cons_append,reported_ok,collect,htx,exceeds_none,Bool.false_eq_true,
   if_false]
  rw [ih,List.append_assoc,List.singleton_append]

variable {maxResponseBytes:ℤ} {tool:Req → List (Except Err Msg)}
lemma sendMsg_taken (hl:maxResponseBytes≤0) {msg:Msg} {text:String}
 (ht:rt.render msg=.ok text) (hs:s.sendErr=none) :
 Go.sendMsg rt maxResponseBytes msg s=(none,{ s with content:=s.content++[text] }) := by
 simp [Go.sendMsg,Go.sendBlock,hs,ht,Int.not_lt.2 hl]

/-- Every message the handler emits adds its block; the error comes last and adds none. -/
theorem invokeStream_emits (hl:maxResponseBytes≤0) {handler:Go.Handler Msg Err}
 {emitted:List Msg} {err:Err} (hem:Go.Emits handler emitted err)
 (ht:List.Forall₂ (fun m t=>rt.render m=.ok t) emitted texts) (hs:s.sendErr=none) :
 Go.invokeStream rt maxResponseBytes handler s =
  (some (rt.normalize err),{ s with content:=s.content++texts }) := by
 induction hem generalizing texts s with
 | done err contextErr=>
  cases ht
  simp [Go.invokeStream]
 | @send msg next emitted err _ ih=>
  cases ht with
  | @cons _ text _ texts htx ht=>
   rw [Go.invokeStream,sendMsg_taken hl htx hs]
   rw [ih ht (s := { s with content:=s.content++[text] }) hs]
   simp

def Keeps (rt:Runtime Msg Err Id Payload) (id:Id) (emitted:List Msg) (err:Err)
  (response:Except Err (Response Id Payload)) : Prop :=
 ∃texts,emitted.mapM rt.render=.ok texts ∧
  response=.ok {
   id
   result:={
    content:=texts++[rt.message (rt.normalize err)]
    isError:=true
    error:=some (rt.payload (rt.normalize err)) } }

variable {req:Req} {emitted:List Msg} {err:Err} {texts:List String}
lemma go_keeps (hl:maxResponseBytes≤0) (id:Id) {tool:Req → Go.Handler Msg Err}
 (hem:Go.Emits (tool req) emitted err) (ht:emitted.mapM rt.render=.ok texts) :
 Keeps rt id emitted err (Go.toolsCallStream rt maxResponseBytes id (.ok req) tool) := by
 refine ⟨texts,ht,?_⟩
 simp only [Go.toolsCallStream,Int.not_lt.2 hl]
 rw [invokeStream_emits hl hem (mapM_ok.1 ht) rfl]
 rfl

lemma python_keeps (id:Id) (hi:Streams (tool req) emitted err)
 (ht:emitted.mapM rt.render=.ok texts) :
 Keeps rt id emitted err (Python.callStreamTool rt none id (.ok req) tool) := by
 refine ⟨texts,ht,?_⟩
 simp only [Python.callStreamTool,Python.invokeStream,exceeds_none,Bool.false_eq_true,if_false,
  collect_streams hi (mapM_ok.1 ht)]
 rfl

lemma rust_keeps (id:Id) {tool:Req → Except Err (List (Except Err Msg))}
 (hem:Rust.Emits (tool req) emitted err) (ht:emitted.mapM rt.render=.ok texts) :
 Keeps rt id emitted err (Rust.streamToolsCall rt none id (.ok req) tool) := by
 refine ⟨texts,ht,?_⟩
 rcases hem with ⟨items,htl,hi⟩|⟨htl,rfl⟩
 · simp only [Rust.streamToolsCall,Rust.recoverResponseStream,htl,exceeds_none,Bool.false_eq_true,
    if_false,collect_streams hi (mapM_ok.1 ht)]
   rfl
 · cases ht
   simp only [Rust.streamToolsCall,htl]
   rfl

lemma mcpCallTool_failed (id:Id) (hi:Streams (tool req) emitted err)
 (ht:emitted.mapM rt.render=.ok texts) : TypeScript.mcpCallTool rt none id (.ok req) tool =
  .ok ⟨id,errorResult rt [] (rt.normalize err)⟩ := by
 simp only [TypeScript.mcpCallTool,TypeScript.collected,TypeScript.invokeStreamTool,exceeds_none,
  Bool.false_eq_true,if_false,collect_streams hi (mapM_ok.1 ht)]
 rfl

lemma typescript_keeps_iff (id:Id) (hi:Streams (tool req) emitted err)
 (ht:emitted.mapM rt.render=.ok texts) :
 Keeps rt id emitted err (TypeScript.mcpCallTool rt none id (.ok req) tool) ↔ emitted=[] := by
 rw [mcpCallTool_failed id hi ht]
 constructor
 · rintro ⟨texts',ht',hr⟩
   have hc:[]++[rt.message (rt.normalize err)]=texts' ++ [rt.message (rt.normalize err)]:=
    congrArg (fun r=>r.result.content) (Except.ok.inj hr)
   rw [List.append_cancel_right hc.symm] at ht'
   exact List.length_eq_zero_iff.1 (mapM_ok.1 ht').length_eq
 · rintro rfl
   exact ⟨[],rfl,rfl⟩

/-- Go, Python and Rust keep the blocks of a tool that fails part-way, TypeScript only if there
  are none. -/
theorem partial_output_kept_iff (go python typescript rust:Runtime Msg Err Id Payload)
  (goTool:Req → Go.Handler Msg Err) (pythonTool typescriptTool:Req → List (Except Err Msg))
  (rustTool:Req → Except Err (List (Except Err Msg))) {maxResponseBytes:ℤ}
  (hlimit:maxResponseBytes≤0) (id:Id) (req:Req) (hgo:Go.Emits (goTool req) emitted err)
  (hpython:Streams (pythonTool req) emitted err)
  (htypescript:Streams (typescriptTool req) emitted err) (hrust:Rust.Emits (rustTool req) emitted err)
  (hrender:∀rt∈[go,python,typescript,rust],∃texts,emitted.mapM rt.render=.ok texts) :
  (Keeps go id emitted err (Go.toolsCallStream go maxResponseBytes id (.ok req) goTool) ∧
   Keeps python id emitted err (Python.callStreamTool python none id (.ok req) pythonTool) ∧
   Keeps typescript id emitted err (TypeScript.mcpCallTool typescript none id (.ok req) typescriptTool) ∧
   Keeps rust id emitted err (Rust.streamToolsCall rust none id (.ok req) rustTool)) ↔
   emitted=[] := by
 obtain ⟨goTexts,hg⟩:=hrender go (by simp)
 obtain ⟨pythonTexts,hp⟩:=hrender python (by simp)
 obtain ⟨typescriptTexts,ht⟩:=hrender typescript (by simp)
 obtain ⟨rustTexts,hr⟩:=hrender rust (by simp)
 have hk:=typescript_keeps_iff id htypescript ht
 constructor
 · rintro ⟨-,-,h,-⟩
   exact hk.1 h
 · intro hn
   exact ⟨go_keeps hlimit id hgo hg,python_keeps id hpython hp,hk.2 hn,
    rust_keeps id hrust hr⟩

def plainRuntime : Runtime String String ℕ String where
 render:=.ok
 normalize:=id
 message:=id
 payload:=id
 limitError := "encoded MCP response exceeds configured byte limit"
 responseSize:=fun _=>0
 blockSize:=fun _=>0

theorem failed_at_once_kept : Keeps plainRuntime 1 [] "boom"
   (TypeScript.mcpCallTool plainRuntime none 1 (.ok ()) fun _=>[.error "boom"]) := by
 have hk:=partial_output_kept_iff plainRuntime plainRuntime plainRuntime plainRuntime
  (fun _:Unit=>.done (some "boom") none) (fun _=>[.error "boom"])
  (fun _=>[.error "boom"]) (fun _=>.error "boom") (Int.le_refl 0) 1 ()
  (.done "boom" none) ⟨[],rfl⟩ ⟨[],rfl⟩ (.inr ⟨rfl,rfl⟩) fun rt _=>⟨[],rfl⟩
 exact (hk.2 rfl).2.2.1

theorem emitted_dropped :
  TypeScript.mcpCallTool plainRuntime none 1 (.ok ()) (fun _=>[.ok "first",.error "boom"]) =
   .ok ⟨1,{ content:=["boom"],isError:=true,error:=some "boom" }⟩ ∧
  ¬Keeps plainRuntime 1 ["first"] "boom"
   (TypeScript.mcpCallTool plainRuntime none 1 (.ok ()) fun _=>[.ok "first",.error "boom"]) := by
 refine ⟨rfl,fun h=>?_⟩
 cases (typescript_keeps_iff 1 ⟨[],rfl⟩ rfl).1 h
end InvariantProtocol.ToolStream
