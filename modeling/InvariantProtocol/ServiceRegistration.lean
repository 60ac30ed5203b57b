import InvariantProtocol.DescriptorGraph
import InvariantProtocol.MethodFilters
import Mathlib.Logic.Function.Basic
/-! Registration of services with a Go server: all services of a call are validated and staged before
any is committed. -/
namespace InvariantProtocol.ServiceRegistration
open List GoResult DescriptorGraph MethodFilters

/-- `grpc.MethodDesc`; of a handler it is only known whether it is nil. -/
structure MethodDesc where
 methodName : String
 hasHandler : Bool

structure StreamDesc where
 streamName : String
 hasHandler : Bool
 serverStreams : Bool
 clientStreams : Bool

/-- A handler type that is nil or no pointer to an interface is `none`. -/
structure ServiceDesc (Iface:Type) where
 serviceName : String
 handlerType : Option Iface
 methods : List MethodDesc
 streams : List StreamDesc

/-- `registeredService`, either part of which may be nil. -/
structure Registration (Iface Impl:Type) where
 desc : Option (ServiceDesc Iface)
 service : Option Impl

structure MethodInfo where
 inputType : String
 outputType : String
 comment : String
 clientStreaming : Bool
 serverStreaming : Bool

structure ServiceInfo where
 fullName : String
 methods : AList fun _ : String=>MethodInfo

/-- The descriptor image of a server: what was parsed from it, and its linked files. -/
structure Image (Rest Info:Type) where
 services : AList fun _ : String=>ServiceInfo
 files : Registry Rest Info

structure Tool (Rest Info Impl:Type) where
 name : String
 description : String
 inputType : String
 outputType : String
 serviceFullName : String
 methodName : String
 serverStreaming : Bool
 serviceImpl : Impl
 unaryDesc : Option MethodDesc
 streamDesc : Option StreamDesc
 newRequest : Option (Factory Rest Info)

/-- What registration reads and does not change: the image, the descriptors and types linked into
the program, the filters, and what reflection says of implementations. -/
structure Setup (Rest Info Iface Impl:Type) where
 image : Option (Image Rest Info)
 linked : Registry Rest Info
 types : String → LinkedType Rest Info
 env : Environment
 includes : List (List Char)
 excludes : List (List Char)
 projected : Iface
 implements : Impl → Iface → Bool
 implName : Impl → String
 ifaceName : Iface → String

structure Service (Iface Impl:Type) where
 desc : ServiceDesc Iface
 impl : Impl

structure State (Rest Info Iface Impl:Type) where
 frozen : Bool
 native : String → Bool
 registeredServices : String → Option (Service Iface Impl)
 tools : String → Option (Tool Rest Info Impl)

variable {Rest Info Iface Impl:Type}
/-- What `newNativeGRPCServer` registers on every server. -/
def reflectionServices : List String :=
 ["grpc.reflection.v1.ServerReflection","grpc.reflection.v1alpha.ServerReflection"]

def newServerWithFDS : State Rest Info Iface Impl:=⟨false,(· ∈ reflectionServices),fun _=>none,fun _=>none⟩

section

def validateService (setup:Setup Rest Info Iface Impl) (registration:Registration Iface Impl) :
  Result (Service Iface Impl) :=
 match registration.desc with
 | none=>.error (.errorf "invariant: cannot register a nil grpc.ServiceDesc" [])
 | some desc=>
  if desc.serviceName = "" then
   .error (.errorf "invariant: cannot register a service with an empty name" [])
  else
   match desc.handlerType with
   | none=>
    .error (.errorf "invariant: service %q has an invalid HandlerType" [.str desc.serviceName])
   | some iface=>
    match registration.service with
    | none=>
     .error (.errorf "invariant: service %q has a nil implementation" [.str desc.serviceName])
    | some impl=>
     if setup.implements impl iface then .ok ⟨desc,impl⟩
     else
      .error (.errorf "invariant: service %q implementation %T does not satisfy %v"
       [.str desc.serviceName,.str (setup.implName impl),.str (setup.ifaceName iface)])

def checkUnary (serviceName:String) (svcInfo:ServiceInfo) (seen:List String)
  (method:MethodDesc) : Result (List String) :=
 if method.methodName = "" ∨ method.hasHandler=false then
  .error (.errorf "invariant: service %q has an invalid unary method descriptor" [.str serviceName])
 else if method.methodName∈seen then
  .error (.errorf "invariant: service %q has duplicate method %q"
   [.str serviceName,.str method.methodName])
 else
  match svcInfo.methods.lookup method.methodName with
  | none=>
   .error (.errorf "invariant: generated service %q method %q is absent from descriptor.binpb"
    [.str serviceName,.str method.methodName])
  | some info=>
   if info.clientStreaming ∨ info.serverStreaming then
    .error (.errorf
     "invariant: generated service %q method %q is unary but descriptor.binpb declares streaming"
     [.str serviceName,.str method.methodName])
   else .ok (method.methodName::seen)

def checkStream (serviceName:String) (svcInfo:ServiceInfo) (seen:List String)
  (method:StreamDesc) : Result (List String) :=
 if method.streamName = "" ∨ method.hasHandler=false then
  .error (.errorf "invariant: service %q has an invalid stream method descriptor" [.str serviceName])
 else if method.streamName∈seen then
  .error (.errorf "invariant: service %q has duplicate method %q"
   [.str serviceName,.str method.streamName])
 else
  match svcInfo.methods.lookup method.streamName with
  | none=>
   .error (.errorf "invariant: generated service %q method %q is absent from descriptor.binpb"
    [.str serviceName,.str method.streamName])
  | some info=>
   if info.clientStreaming≠method.clientStreams ∨ info.serverStreaming≠method.serverStreams then
    .error (.errorf
     "invariant: generated service %q method %q streaming cardinality disagrees with descriptor.binpb"
     [.str serviceName,.str method.streamName])
   else .ok (method.streamName::seen)

def checkTypes (serviceName:String) (linkedService:ServiceProto)
  (entry:Sigma fun _ : String=>MethodInfo) : Result Unit :=
 match linkedService.methods.find? (·.name=entry.1) with
 | none=>
  .error (.errorf "invariant: linked generated service %q is missing descriptor.binpb method %q"
   [.str serviceName,.str entry.1])
 | some method=>
  rejectIf (method.inputType≠entry.2.inputType ∨ method.outputType≠entry.2.outputType)
   (.errorf "invariant: generated service %q method %q message types disagree with descriptor.binpb"
    [.str serviceName,.str entry.1])

def declares (reg:Registry Rest Info) (name:String) : Bool :=
 reg.files.any fun file=>name∈file.names

def linkedServiceDescriptor (reg:Registry Rest Info) (name:String) :
  Result (ServiceDescriptor Rest Info) :=
 match findService reg.files name with
 | some service=>.ok service
 | none=>
  if declares reg name then
   .error (.errorf "invariant: linked descriptor %q is not a protobuf service" [.str name])
  else
   .error (.wrapf "invariant: generated service %q has no linked protobuf descriptor: %w" [.str name]
    (.errorf "proto: not found" []))

def runtimeServiceDescriptor (reg:Registry Rest Info) (name:String) :
  Result (ServiceDescriptor Rest Info) :=
 match findService reg.files name with
 | some service=>.ok service
 | none=>
  if declares reg name then
   .error (.errorf "invariant: runtime descriptor %q is not a protobuf service" [.str name])
  else
   .error (.wrapf "invariant: service %q is absent from the runtime descriptor graph: %w" [.str name]
    (.errorf "proto: not found" []))

variable [DecidableEq Rest]
def checkGraphs (linked runtime:Registry Rest Info) (linkedService runtimeService:ServiceDescriptor Rest Info)
  (serviceName:String) : Result Unit :=
 match reachableServiceFiles linked linkedService,reachableServiceFiles runtime runtimeService with
 | some linkedFiles,some runtimeGraph=>
  let mismatch:=descriptorGraphMismatch linkedFiles runtimeGraph
  rejectIf (mismatch≠"")
   (.errorf "invariant: generated service %q protobuf file %q disagrees with descriptor.binpb"
    [.str serviceName,.str mismatch])
 | _,_=>.error .exhausted

def validateDescriptorAgreement (setup:Setup Rest Info Iface Impl) (image:Image Rest Info)
  (desc:ServiceDesc Iface) (svcInfo:ServiceInfo) : Result Unit:=do
 let seen ← desc.methods.foldlM (checkUnary desc.serviceName svcInfo) []
 let seen ← desc.streams.foldlM (checkStream desc.serviceName svcInfo) seen
 let missing:=svcInfo.methods.keys.filter (· ∉ seen)
 rejectIf (missing≠[])
  (.errorf "invariant: generated service %q is missing descriptor.binpb methods: %s"
   [.str desc.serviceName,.str (String.intercalate ", " (missing.insertionSort (· ≤ ·)))])
 let linkedService ← linkedServiceDescriptor setup.linked desc.serviceName
 svcInfo.methods.entries.forM (checkTypes desc.serviceName linkedService.proto)
 let runtimeService ← runtimeServiceDescriptor image.files desc.serviceName
 checkGraphs setup.linked image.files linkedService runtimeService desc.serviceName
end

section
variable [DecidableEq Rest]
/-- `nil` where there is no image, the message is not in it, or a linked type disagrees with it. -/
def messageFactory (setup:Setup Rest Info Iface Impl) (fullName:String) :
  Option (Factory Rest Info) :=
 setup.image.bind fun image=>
  (findMessage image.files.files fullName).bind fun descriptor=>
   (checkedMessageFactory setup.types setup.linked image.files descriptor).toOption

def registeredTool (setup:Setup Rest Info Iface Impl) (svcInfo:ServiceInfo)
  (methodInfo:MethodInfo) (methodName:String) (impl:Impl) (unaryDesc:Option MethodDesc)
  (streamDesc:Option StreamDesc) : Tool Rest Info Impl :=
 let toolName:=svcInfo.fullName++"."++methodName
 { name:=toolName
   description:=if methodInfo.comment = "" then toolName else methodInfo.comment
   inputType:=methodInfo.inputType
   outputType:=methodInfo.outputType
   serviceFullName:=svcInfo.fullName
   methodName
   serverStreaming:=methodInfo.serverStreaming
   serviceImpl:=impl
   unaryDesc
   streamDesc
   newRequest:=messageFactory setup methodInfo.inputType }

def selects (setup:Setup Rest Info Iface Impl) (serviceName methodName:String) : Bool :=
 Go.shouldIncludeLocked setup.env setup.includes setup.excludes serviceName methodName

def unaryTool (setup:Setup Rest Info Iface Impl) (service:Service Iface Impl)
  (svcInfo:ServiceInfo) (method:MethodDesc) : Option (Tool Rest Info Impl) :=
 (svcInfo.methods.lookup method.methodName).bind fun methodInfo=>
  if methodInfo.clientStreaming || methodInfo.serverStreaming ||
    !selects setup service.desc.serviceName method.methodName then none
  else some (registeredTool setup svcInfo methodInfo method.methodName service.impl (some method) none)

def streamTool (setup:Setup Rest Info Iface Impl) (service:Service Iface Impl)
  (svcInfo:ServiceInfo) (method:StreamDesc) : Option (Tool Rest Info Impl) :=
 (svcInfo.methods.lookup method.streamName).bind fun methodInfo=>
  if methodInfo.clientStreaming || !methodInfo.serverStreaming ||
    !selects setup service.desc.serviceName method.streamName then none
  else some (registeredTool setup svcInfo methodInfo method.streamName service.impl none (some method))

variable [DecidableEq Iface]
def toolsForService (setup:Setup Rest Info Iface Impl) (service:Service Iface Impl) :
  Result (List (Tool Rest Info Impl)) :=
 match setup.image with
 | none=>.ok []
 | some image=>
  match image.services.lookup service.desc.serviceName with
  | none=>.ok []
  | some svcInfo=>do
   -- a proxy is made from the image itself
   if service.desc.handlerType≠some setup.projected then
    validateDescriptorAgreement setup image service.desc svcInfo
   return service.desc.methods.filterMap (unaryTool setup service svcInfo) ++
    service.desc.streams.filterMap (streamTool setup service svcInfo)

/-- An error leaves the table as it is. -/
def addTool (setup:Setup Rest Info Iface Impl) (tools:String → Option (Tool Rest Info Impl))
  (t:Tool Rest Info Impl) : Result (String → Option (Tool Rest Info Impl)) :=
 match (tools t.name).filter (·.serviceFullName≠t.serviceFullName) with
 | some existing=>
  .error (.errorf "tool name collision: %q is registered by both %q and %q"
   [.str t.name,.str existing.serviceFullName,.str t.serviceFullName])
 | none=>
  if t.serverStreaming ∧ t.streamDesc.isNone then
   .error (.errorf "streaming tool %q has no grpc.StreamDesc" [.str t.name])
  else if t.serverStreaming=false ∧ t.unaryDesc.isNone then
   .error (.errorf "unary tool %q has no grpc.MethodDesc" [.str t.name])
  else
   match t.newRequest.or (messageFactory setup t.inputType) with
   | none=>.error (.errorf "tool %q has no protobuf request type" [.str t.name])
   | some factory=>.ok (Function.update tools t.name (some { t with newRequest:=some factory }))
end

section
variable [DecidableEq Rest] [DecidableEq Iface]
/-- What staging has gathered: the names of the services, their tools and the owners of all tools. -/
structure Staged (Rest Info Impl:Type) where
 serviceNames : List String
 stagedTools : List (List (Tool Rest Info Impl))
 toolOwners : String → Option String

def claimTool (owners:String → Option String) (t:Tool Rest Info Impl) :
  Result (String → Option String) :=
 match owners t.name with
 | some owner=>
  .error (.errorf "tool name collision: %q is registered by both %q and %q; configure Server.Include() before registration to scope to one"
   [.str t.name,.str owner,.str t.serviceFullName])
 | none=>.ok (Function.update owners t.name (some t.serviceFullName))

def stage (setup:Setup Rest Info Iface Impl) (st:State Rest Info Iface Impl)
  (staged:Staged Rest Info Impl) (service:Service Iface Impl) :
  Result (Staged Rest Info Impl):=do
 let name:=service.desc.serviceName
 rejectIf (name∈staged.serviceNames)
  (.errorf "invariant: duplicate service registration for %q" [.str name])
 rejectIf ((st.registeredServices name).isSome=true)
  (.errorf "invariant: duplicate service registration for %q" [.str name])
 rejectIf (st.native name=true)
  (.errorf "invariant: duplicate native gRPC service registration for %q" [.str name])
 let tools ← toolsForService setup service
 let owners ← tools.foldlM claimTool staged.toolOwners
 return ⟨name::staged.serviceNames,staged.stagedTools++[tools],owners⟩

/-- The tools added before the first error, and the error. -/
def addTools (setup:Setup Rest Info Iface Impl) :
  (String → Option (Tool Rest Info Impl)) → List (Tool Rest Info Impl) →
  Option GoError×(String → Option (Tool Rest Info Impl))
 | tools,[]=>(none,tools)
 | tools,t::rest=>
  match addTool setup tools t with
  | .error err=>(some err,tools)
  | .ok tools=>addTools setup tools rest

/-- The commit loop, which stops at an error and leaves what it has done. -/
def commit (setup:Setup Rest Info Iface Impl) :
  State Rest Info Iface Impl → List (Service Iface Impl×List (Tool Rest Info Impl)) →
  Option GoError×State Rest Info Iface Impl
 | st,[]=>(none,st)
 | st,(service,tools)::rest=>
  let name:=service.desc.serviceName
  let added:=addTools setup st.tools tools
  let st : State Rest Info Iface Impl :=
   { st with
     native:=Function.update st.native name true
     registeredServices:=Function.update st.registeredServices name (some service)
     tools:=added.2 }
  match added.1 with
  | some err=>(some err,st)
  | none=>commit setup st rest

def registerServices (setup:Setup Rest Info Iface Impl) (st:State Rest Info Iface Impl)
  (registrations:List (Registration Iface Impl)) (subject:String) :
  Option GoError×State Rest Info Iface Impl :=
 if registrations=[] then (none,st)
 else
  match registrations.mapM (validateService setup) with
  | .error err=>(some err,st)
  | .ok services=>
   if st.frozen then
    (some (.errorf "invariant: service registration is frozen; cannot register %s" [.str subject]),st)
   else
    let owners:=fun name=>(st.tools name).map (·.serviceFullName)
    match services.foldlM (stage setup st) ⟨[],[],owners⟩ with
    | .error err=>(some err,st)
    | .ok staged=>commit setup st (services.zip staged.stagedTools)

def freeze (st:State Rest Info Iface Impl) : State Rest Info Iface Impl:={ st with frozen:=true }
end

section
variable {setup:Setup Rest Info Iface Impl}
/-- The types linked into the program are those of its linked descriptors. -/
def LinkedTypes (setup:Setup Rest Info Iface Impl) : Prop :=
 ∀name message,findMessage setup.linked.files name=some message →
  setup.types name=.notFound ∨ setup.types name=.found message

variable {service:ServiceDescriptor Rest Info} {name:String} {reg:Registry Rest Info}
lemma linkedServiceDescriptor_ok
 (h:linkedServiceDescriptor reg name=.ok service) : findService reg.files name=some service := by
 unfold linkedServiceDescriptor at h
 split at h
 · next s hs=>
   cases h
   exact hs
 · split_ifs at h

lemma runtimeServiceDescriptor_ok
 (h:runtimeServiceDescriptor reg name=.ok service) : findService reg.files name=some service := by
 unfold runtimeServiceDescriptor at h
 split at h
 · next s hs=>
   cases h
   exact hs
 · split_ifs at h

variable [DecidableEq Rest]
lemma checkGraphs_ok {linked runtime:Registry Rest Info} {runtimeService:ServiceDescriptor Rest Info}
 (h:checkGraphs linked runtime service runtimeService name=.ok ()) :
 ∃linkedFiles runtimeGraph,reachableServiceFiles linked service=some linkedFiles ∧
  reachableServiceFiles runtime runtimeService=some runtimeGraph ∧
  descriptorGraphMismatch linkedFiles runtimeGraph = "" := by
 unfold checkGraphs at h
 split at h
 · next linkedFiles runtimeGraph hl hr=>
   simp only [rejectIf_ok,not_not] at h
   exact ⟨linkedFiles,runtimeGraph,hl,hr,h⟩
 · cases h

lemma uses_of_checkTypes {serviceName:String} {service:ServiceProto}
 {entry:Sigma fun _ : String=>MethodInfo} (h:checkTypes serviceName service entry=.ok ()) :
 Uses service entry.2.inputType := by
 unfold checkTypes at h
 split at h
 · cases h
 · next method hmethod=>
   simp only [rejectIf_ok,not_or,not_not] at h
   exact ⟨method,List.mem_of_find?_eq_some hmethod,.inl h.1.symm⟩

lemma factory_of_agreement {image:Image Rest Info} (hi:setup.image=some image)
 (hl:LinkedTypes setup) {desc:ServiceDesc Iface} {svcInfo:ServiceInfo}
 (h:validateDescriptorAgreement setup image desc svcInfo=.ok ()) {info:MethodInfo}
 (hin:svcInfo.methods.lookup name=some info) : (messageFactory setup info.inputType).isSome=true := by
 simp only [validateDescriptorAgreement,bind_ok,exists_unit_ok,forM_ok] at h
 obtain ⟨_,-,_,-,-,service,hs,ht,runtimeService,hrn,hg⟩:=h
 have hs:=linkedServiceDescriptor_ok hs
 have hrn:=runtimeServiceDescriptor_ok hrn
 have hu:Uses service.proto info.inputType:=
  uses_of_checkTypes (ht ⟨name,info⟩ (AList.mem_lookup_iff.1 hin))
 obtain ⟨linkedFiles,runtimeGraph,hfiles,hgr,hms⟩:=checkGraphs_ok hg
 obtain ⟨hr,-⟩:=serviceRegistered_of_find hs
 have hc:=covered_of_mismatch hr (serviceRegistered_of_find hrn).1 hfiles
  hgr hms
 obtain ⟨m,m',hm,hm',hus,htw⟩:=used_message_agrees hr hc hu
 have hn:m'.proto.fullName=info.inputType:=(findMessage_eq_some.1 hm').2
 obtain ⟨factory,hf⟩:=checkedMessageFactory_ok hc hus htw
  (hn ▸ hl _ m hm)
 simp [messageFactory,hi,hm',hf,Except.toOption]
end

section
variable [DecidableEq Rest] {setup:Setup Rest Info Iface Impl}
/-- The service offers the method, the image knows it as unary or server streaming, and the filters
select it. -/
def SelectedMethod (setup:Setup Rest Info Iface Impl) (desc:ServiceDesc Iface)
  (fullName methodName:String) : Prop :=
 ∃image svcInfo info,setup.image=some image ∧
  image.services.lookup desc.serviceName=some svcInfo ∧ svcInfo.fullName=fullName ∧
  svcInfo.methods.lookup methodName=some info ∧ info.clientStreaming=false ∧
  selects setup desc.serviceName methodName=true ∧
  (info.serverStreaming=false ∧ (∃method∈desc.methods,method.methodName=methodName) ∨
   info.serverStreaming=true ∧ ∃method∈desc.streams,method.streamName=methodName)

/-- Before it is passed on, a proxy has a factory for the input of each of its methods. -/
def ProxyFactories (setup:Setup Rest Info Iface Impl) (desc:ServiceDesc Iface) : Prop :=
 desc.handlerType=some setup.projected → ∀image svcInfo name info,
  setup.image=some image → image.services.lookup desc.serviceName=some svcInfo →
  svcInfo.methods.lookup name=some info →
  ((∃method∈desc.methods,method.methodName=name) ∨
   ∃method∈desc.streams,method.streamName=name) →
  (messageFactory setup info.inputType).isSome=true

/-- Nothing that `addTool` asks of the tool itself is missing. -/
structure Ready (t:Tool Rest Info Impl) : Prop where
 stream : t.serverStreaming=true → t.streamDesc.isSome=true
 unary : t.serverStreaming=false → t.unaryDesc.isSome=true
 request : t.newRequest.isSome=true
 named : t.name=t.serviceFullName++"."++t.methodName

variable {service:Service Iface Impl} {svcInfo:ServiceInfo} {t:Tool Rest Info Impl}
lemma unaryTool_eq_some {method:MethodDesc} :
 unaryTool setup service svcInfo method=some t ↔
  ∃info,svcInfo.methods.lookup method.methodName=some info ∧ info.clientStreaming=false ∧
   info.serverStreaming=false ∧ selects setup service.desc.serviceName method.methodName=true ∧
   t=registeredTool setup svcInfo info method.methodName service.impl (some method) none := by
 simp only [unaryTool,Option.bind_eq_some_iff,Option.ite_none_left_eq_some,Bool.or_eq_true,
  Bool.not_eq_true',not_or,Bool.not_eq_true,Bool.not_eq_false,Option.some.injEq,and_assoc,@eq_comm _ t]

lemma streamTool_eq_some {method:StreamDesc} :
 streamTool setup service svcInfo method=some t ↔
  ∃info,svcInfo.methods.lookup method.streamName=some info ∧ info.clientStreaming=false ∧
   info.serverStreaming=true ∧ selects setup service.desc.serviceName method.streamName=true ∧
   t=registeredTool setup svcInfo info method.streamName service.impl none (some method) := by
 simp only [streamTool,Option.bind_eq_some_iff,Option.ite_none_left_eq_some,Bool.or_eq_true,
  Bool.not_eq_true',not_or,Bool.not_eq_true,Bool.not_eq_false,Option.some.injEq,and_assoc,@eq_comm _ t]

/-- The tools of a service: one for each selected method, and each ready. -/
structure ToolsOf (setup:Setup Rest Info Iface Impl) (service:Service Iface Impl)
  (tools:List (Tool Rest Info Impl)) : Prop where
 ready : ∀t∈tools,Ready t
 methods : ∀fullName methodName,
  (∃t∈tools,t.serviceFullName=fullName ∧ t.methodName=methodName) ↔
   SelectedMethod setup service.desc fullName methodName

omit [DecidableEq Rest] in
lemma toolsOf_nil (h:∀fullName methodName,¬ SelectedMethod setup service.desc fullName methodName) :
 ToolsOf setup service [] where
 ready t ht:=by cases ht
 methods fullName methodName:=by simp [h]

lemma toolsOf_entries {image:Image Rest Info} (hi:setup.image=some image)
 (hin:image.services.lookup service.desc.serviceName=some svcInfo)
 (hf:∀name info,svcInfo.methods.lookup name=some info →
  ((∃method∈service.desc.methods,method.methodName=name) ∨
   ∃method∈service.desc.streams,method.streamName=name) →
  (messageFactory setup info.inputType).isSome=true) :
 ToolsOf setup service (service.desc.methods.filterMap (unaryTool setup service svcInfo) ++
  service.desc.streams.filterMap (streamTool setup service svcInfo)) where
 ready t ht:=by
  obtain ht|ht:=List.mem_append.1 ht
  · obtain ⟨method,hmethod,ht⟩:=List.mem_filterMap.1 ht
    obtain ⟨info,hl,-,hs,-,rfl⟩:=unaryTool_eq_some.1 ht
    refine ⟨fun hst=>?_,fun _=>rfl,hf _ info hl (.inl ⟨method,hmethod,rfl⟩),rfl⟩
    exact absurd (hs.symm.trans hst) Bool.false_ne_true
  · obtain ⟨method,hmethod,ht⟩:=List.mem_filterMap.1 ht
    obtain ⟨info,hl,-,hs,-,rfl⟩:=streamTool_eq_some.1 ht
    refine ⟨fun _=>rfl,fun hu=>?_,hf _ info hl (.inr ⟨method,hmethod,rfl⟩),rfl⟩
    exact absurd (hu.symm.trans hs) Bool.false_ne_true
 methods fullName methodName:=by
  constructor
  · rintro ⟨t,ht,rfl,rfl⟩
    obtain ht|ht:=List.mem_append.1 ht
    · obtain ⟨method,hmethod,ht⟩:=List.mem_filterMap.1 ht
      obtain ⟨info,hl,hc,hs,hsl,rfl⟩:=unaryTool_eq_some.1 ht
      exact ⟨image,svcInfo,info,hi,hin,rfl,hl,hc,hsl,
       .inl ⟨hs,method,hmethod,rfl⟩⟩
    · obtain ⟨method,hmethod,ht⟩:=List.mem_filterMap.1 ht
      obtain ⟨info,hl,hc,hs,hsl,rfl⟩:=streamTool_eq_some.1 ht
      exact ⟨image,svcInfo,info,hi,hin,rfl,hl,hc,hsl,
       .inr ⟨hs,method,hmethod,rfl⟩⟩
  · rintro ⟨image',svcInfo',info,hi',hin',rfl,hl,hc,hsl,hls⟩
    rw [hi,Option.some.injEq] at hi'
    subst hi'
    rw [hin,Option.some.injEq] at hin'
    subst hin'
    obtain ⟨hs,method,hmethod,rfl⟩|⟨hs,method,hmethod,rfl⟩:=hls
    · refine ⟨_,mem_append_left _ (List.mem_filterMap.2 ⟨method,hmethod,
       unaryTool_eq_some.2 ⟨info,hl,hc,hs,hsl,rfl⟩⟩),rfl,rfl⟩
    · refine ⟨_,mem_append_right _ (List.mem_filterMap.2 ⟨method,hmethod,
       streamTool_eq_some.2 ⟨info,hl,hc,hs,hsl,rfl⟩⟩),rfl,rfl⟩

variable [DecidableEq Iface] {tools:List (Tool Rest Info Impl)}
lemma toolsOf_of_ok (hln:LinkedTypes setup) (hpr:ProxyFactories setup service.desc)
 (h:toolsForService setup service=.ok tools) :
 ToolsOf setup service tools := by
 unfold toolsForService at h
 split at h
 · next hi=>
   cases h
   refine toolsOf_nil ?_
   rintro _ _ ⟨image,_,_,hs,-⟩
   rw [hi] at hs
   cases hs
 · next image hi=>
   split at h
   · next hn=>
     cases h
     refine toolsOf_nil ?_
     rintro _ _ ⟨image',svcInfo,_,hs,hin,-⟩
     rw [hi,Option.some.injEq] at hs
     rw [←hs,hn] at hin
     cases hin
   · next svcInfo hin=>
     by_cases hp : service.desc.handlerType=some setup.projected
     · rw [if_neg (not_not.2 hp),pure_ok] at h
       subst h
       exact toolsOf_entries hi hin fun name info hl hls=>
        hpr hp image svcInfo name info hi hin hl hls
     · rw [if_pos hp,bind_ok,exists_unit_ok,pure_ok] at h
       obtain ⟨ha,rfl⟩:=h
       exact toolsOf_entries hi hin fun name info hl _=>
        factory_of_agreement hi hln ha hl

omit [DecidableEq Rest] [DecidableEq Iface] in
lemma claimTool_foldlM {owners owners':String → Option String}
 (h:tools.foldlM claimTool owners=.ok owners') : (tools.map (·.name)).Nodup ∧ (∀t∈tools,owners t.name=none) ∧
  ∀name,owners' name=none ↔ owners name=none ∧ ∀t∈tools,t.name≠name := by
 induction tools generalizing owners with
 | nil=>
  obtain rfl : owners=owners':=by simpa [pure,Except.pure] using h
  simp
 | cons t tools ih=>
  rw [foldlM_cons,bind_ok] at h
  obtain ⟨next,hc,hr⟩:=h
  obtain ⟨hnd,hf,hnn⟩:=ih hr
  unfold claimTool at hc
  split at hc
  · cases hc
  · next hfr=>
    cases hc
    have ho:∀name,Function.update owners t.name (some t.serviceFullName) name=none ↔
      t.name≠name ∧ owners name=none:=by
     intro name
     by_cases hn : name=t.name
     · simp [hn]
     · simp [hn,Ne.symm hn]
    simp only [ho] at hf hnn
    refine ⟨?_,?_,?_⟩
    · rw [map_cons,nodup_cons]
      refine ⟨fun hm=>?_,hnd⟩
      obtain ⟨t',ht',hn⟩:=List.mem_map.1 hm
      exact (hf t' ht').1 hn.symm
    · exact List.forall_mem_cons.2 ⟨hfr,fun t' ht' => (hf t' ht').2⟩
    · intro name
      rw [hnn,forall_mem_cons]
      exact ⟨fun ⟨⟨h₁,h₂⟩,h₃⟩=>⟨h₂,h₁,h₃⟩,fun ⟨h₂,h₁,h₃⟩=>⟨⟨h₁,h₂⟩,h₃⟩⟩

structure StagedFor (setup:Setup Rest Info Iface Impl) (st:State Rest Info Iface Impl)
  (services:List (Service Iface Impl)) (staged:Staged Rest Info Impl) : Prop where
 names : ∀name,name∈staged.serviceNames ↔ ∃s∈services,s.desc.serviceName=name
 distinct : (services.map (·.desc.serviceName)).Nodup
 tools : Forall₂ (fun s tools=>toolsForService setup s=.ok tools) services staged.stagedTools
 toolNames : (staged.stagedTools.flatten.map (·.name)).Nodup
 fresh : ∀t∈staged.stagedTools.flatten,st.tools t.name=none
 owners : ∀name,staged.toolOwners name=none ↔
  st.tools name=none ∧ ∀t∈staged.stagedTools.flatten,t.name≠name

variable {services:List (Service Iface Impl)} {st:State Rest Info Iface Impl}
lemma stagedFor_stage {staged staged':Staged Rest Info Impl} (h:StagedFor setup st services staged)
 (hst:stage setup st staged service=.ok staged') : StagedFor setup st (services++[service]) staged' := by
 simp only [stage,bind_ok,rejectIf_ok,pure_ok] at hst
 obtain ⟨_,hnm,_,-,_,-,tools,htl,owners,ho,rfl⟩:=hst
 obtain ⟨hnd,hf,hn⟩:=claimTool_foldlM ho
 simp only [h.owners] at hf hn
 refine ⟨?_,?_,?_,?_,?_,?_⟩
 · intro name
   simp only [mem_cons,h.names,mem_append,or_and_right,exists_or,exists_eq_left,
    not_mem_nil,or_false,@eq_comm _ name]
   exact or_comm
 · rw [map_append,nodup_append]
   refine ⟨h.distinct,by simp,?_⟩
   rintro name hm _ hl rfl
   obtain ⟨s,hs,rfl⟩:=List.mem_map.1 hm
   have heq:s.desc.serviceName=service.desc.serviceName:=by simpa using hl
   exact hnm ((h.names _).2 ⟨s,hs,heq⟩)
 · exact rel_append h.tools (.cons htl .nil)
 · rw [flatten_append,flatten_singleton,map_append,nodup_append]
   refine ⟨h.toolNames,hnd,?_⟩
   rintro name hm _ hl rfl
   obtain ⟨t,ht,rfl⟩:=List.mem_map.1 hm
   obtain ⟨t',ht',hsm⟩:=List.mem_map.1 hl
   exact (hf t' ht').2 t ht hsm.symm
 · intro t ht
   rw [flatten_append,flatten_singleton,mem_append] at ht
   obtain ht|ht:=ht
   · exact h.fresh t ht
   · exact (hf t ht).1
 · intro name
   rw [hn,flatten_append,flatten_singleton,forall_mem_append,and_assoc]

lemma stagedFor_foldlM {staged:Staged Rest Info Impl}
 (h:services.foldlM (stage setup st) ⟨[],[],fun name=>(st.tools name).map (·.serviceFullName)⟩ =
  .ok staged) : StagedFor setup st services staged := by
 refine foldlM_invariant (fun before x rest s t _ hb hs=>stagedFor_stage hb hs) ?_ h
 exact ⟨by simp,by simp,.nil,by simp,by simp,by simp⟩
end

section
variable [DecidableEq Rest] {setup:Setup Rest Info Iface Impl}
variable {tools:String → Option (Tool Rest Info Impl)} {added:List (Tool Rest Info Impl)}
 {t:Tool Rest Info Impl}
lemma addTool_ready (ht:Ready t) (hfr:tools t.name=none) :
 addTool setup tools t=.ok (Function.update tools t.name (some t)) := by
 obtain ⟨factory,hf⟩:=Option.isSome_iff_exists.1 ht.request
 have hst:¬ (t.serverStreaming=true ∧ t.streamDesc.isNone=true):=by
  rintro ⟨hs,hn⟩
  simpa [Option.isNone_iff_eq_none.1 hn] using ht.stream hs
 have hu:¬ (t.serverStreaming=false ∧ t.unaryDesc.isNone=true):=by
  rintro ⟨hs,hn⟩
  simpa [Option.isNone_iff_eq_none.1 hn] using ht.unary hs
 rw [addTool,hfr,Option.filter_none]
 simp only [if_neg hst,if_neg hu,hf,Option.some_or]
 rw [←hf]

omit [DecidableEq Rest] in
lemma find?_update (hnw:∀t'∈added,t'.name≠t.name) (name:String) :
 (added.find? (·.name=name)).or (Function.update tools t.name (some t) name) =
  ((t::added).find? (·.name=name)).or (tools name) := by
 by_cases hn : t.name=name
 · subst hn
   have hnn:added.find? (fun t' => t'.name=t.name)=none:=
    List.find?_eq_none.2 fun t' ht' => by simpa using hnw t' ht'
   simp [hnn]
 · simp [hn,Ne.symm hn]

lemma addTools_ready (hr:∀t∈added,Ready t) (hn:(added.map (·.name)).Nodup)
 (hf:∀t∈added,tools t.name=none) : addTools setup tools added =
  (none,fun name=>(added.find? (·.name=name)).or (tools name)) := by
 induction added generalizing tools with
 | nil=>rfl
 | cons t added ih=>
  rw [forall_mem_cons] at hr hf
  rw [map_cons,nodup_cons] at hn
  have hnw:∀t'∈added,t'.name≠t.name:=fun t' ht' hnm=>
   hn.1 (hnm ▸ mem_map_of_mem ht')
  have hnx:∀t'∈added,Function.update tools t.name (some t) t'.name=none:=by
   intro t' ht'
   rw [Function.update_of_ne (hnw t' ht')]
   exact hf.2 t' ht'
  simp only [addTools,addTool_ready hr.1 hf.1,ih hr.2 hn.2 hnx,find?_update hnw]

structure Committed (st st':State Rest Info Iface Impl) (services:List (Service Iface Impl))
  (added:List (Tool Rest Info Impl)) : Prop where
 frozen : st'.frozen=st.frozen
 native : ∀name,st'.native name=true ↔
  st.native name=true ∨ ∃s∈services,s.desc.serviceName=name
 registered : ∀s∈services,st'.registeredServices s.desc.serviceName=some s
 others : ∀name,(∀s∈services,s.desc.serviceName≠name) →
  st'.registeredServices name=st.registeredServices name
 names : (added.map (·.name)).Nodup
 fresh : ∀t∈added,st.tools t.name=none
 tools : ∀name,st'.tools name=(added.find? (·.name=name)).or (st.tools name)

omit [DecidableEq Rest] in
lemma Committed.append {st st' st'':State Rest Info Iface Impl}
 {services services':List (Service Iface Impl)} {added':List (Tool Rest Info Impl)}
 (h:Committed st st' services added) (h':Committed st' st'' services' added')
 (hd:∀s∈services,∀s'∈services',s'.desc.serviceName≠s.desc.serviceName) :
 Committed st st'' (services++services') (added++added') where
 frozen:=h'.frozen.trans h.frozen
 native name:=by
  rw [h'.native,h.native]
  simp only [mem_append,or_and_right,exists_or,or_assoc]
 registered s hs:=by
  obtain hs|hs:=List.mem_append.1 hs
  · rw [h'.others _ (hd s hs)]
    exact h.registered s hs
  · exact h'.registered s hs
 others name hnm:=by
  rw [forall_mem_append] at hnm
  rw [h'.others name hnm.2,h.others name hnm.1]
 names:=by
  rw [map_append,nodup_append]
  refine ⟨h.names,h'.names,?_⟩
  rintro _ hm _ hm' rfl
  obtain ⟨t,ht,hnm⟩:=List.mem_map.1 hm
  obtain ⟨t',ht',rfl⟩:=List.mem_map.1 hm'
  have hn:=h'.fresh t' ht'
  rw [h.tools,Option.or_eq_none_iff,List.find?_eq_none] at hn
  exact hn.1 t ht (by simpa using hnm)
 fresh t ht:=by
  obtain ht|ht:=List.mem_append.1 ht
  · exact h.fresh t ht
  · have hn:=h'.fresh t ht
    rw [h.tools,Option.or_eq_none_iff] at hn
    exact hn.2
 tools name:=by
  rw [h'.tools,h.tools,List.find?_append,Option.or_assoc]
  cases hf : added'.find? (fun t=>t.name=name) with
  | none=>rfl
  | some t=>
   have hnm:t.name=name:=by simpa using List.find?_some hf
   have hn:=h'.fresh t (List.mem_of_find?_eq_some hf)
   rw [h.tools,Option.or_eq_none_iff,hnm] at hn
   rw [hn.1]
   rfl

lemma commit_ready {st:State Rest Info Iface Impl}
 {staged:List (Service Iface Impl×List (Tool Rest Info Impl))}
 (hsr:(staged.map (·.1.desc.serviceName)).Nodup) (hr:∀t∈(staged.map (·.2)).flatten,Ready t)
 (hn:((staged.map (·.2)).flatten.map (·.name)).Nodup)
 (hf:∀t∈(staged.map (·.2)).flatten,st.tools t.name=none) : ∃st',commit setup st staged=(none,st') ∧
  Committed st st' (staged.map (·.1)) (staged.map (·.2)).flatten := by
 induction staged generalizing st with
 | nil=>exact ⟨st,rfl,rfl,by simp,by simp,fun _ _=>rfl,by simp,by simp,by simp⟩
 | cons entry rest ih=>
  obtain ⟨service,tools⟩:=entry
  rw [map_cons,nodup_cons] at hsr
  rw [map_cons,flatten_cons,forall_mem_append] at hr hf
  rw [map_cons,flatten_cons,map_append,nodup_append] at hn
  have ha:=@addTools_ready _ _ _ _ _ setup st.tools tools hr.1 hn.1 hf.1
  let first : State Rest Info Iface Impl:=
   { st with
     native:=Function.update st.native service.desc.serviceName true
     registeredServices:=
      Function.update st.registeredServices service.desc.serviceName (some service)
     tools:=fun name=>(tools.find? (·.name=name)).or (st.tools name) }
  have hfr:Committed st first [service] tools:=by
   refine ⟨rfl,?_,?_,?_,hn.1,hf.1,fun _=>rfl⟩
   · intro name
     by_cases hnm : name=service.desc.serviceName
     · simp [first,hnm]
     · simp [first,hnm,Ne.symm hnm]
   · simp [first]
   · intro name hnm
     exact Function.update_of_ne (hnm service (by simp)).symm _ _
  have hnx:∀t∈(rest.map (·.2)).flatten,first.tools t.name=none:=by
   intro t ht
   have hnn:tools.find? (fun t' => t'.name=t.name)=none:=by
    refine List.find?_eq_none.2 fun t' ht' => ?_
    simpa using hn.2.2 _ (mem_map_of_mem ht') _ (mem_map_of_mem ht)
   rw [hfr.tools,hnn,Option.none_or]
   exact hf.2 t ht
  obtain ⟨st',hc,hrs⟩:=ih hsr.2 hr.2 hn.2.1 hnx
  refine ⟨st',?_,?_⟩
  · rw [commit,ha]
    exact hc
  · refine hfr.append hrs ?_
    simp only [mem_singleton,forall_eq]
    intro s hs hnm
    obtain ⟨entry,hen,rfl⟩:=List.mem_map.1 hs
    exact hsr.1 (hnm ▸ mem_map_of_mem hen)
end

section
variable {setup:Setup Rest Info Iface Impl}
lemma validateService_ok {registration:Registration Iface Impl} {service:Service Iface Impl}
 (h:validateService setup registration=.ok service) :
 registration=⟨some service.desc,some service.impl⟩ := by
 obtain ⟨desc,impl⟩:=registration
 unfold validateService at h
 split at h
 · cases h
 · next desc hd=>
   subst hd
   split at h
   · cases h
   · split at h
     · cases h
     · split at h
       · cases h
       · next impl hi=>
         subst hi
         split at h
         · cases h
           rfl
         · cases h

variable {registrations:List (Registration Iface Impl)} {services:List (Service Iface Impl)}
lemma registrations_eq (h:registrations.mapM (validateService setup)=.ok services) :
 registrations=services.map fun s=>⟨some s.desc,some s.impl⟩ := by
 rw [mapM_ok] at h
 induction h with
 | nil=>rfl
 | cons hv _ ih=>rw [map_cons,←validateService_ok hv,←ih]

variable [DecidableEq Rest] [DecidableEq Iface]
lemma commit_staged (hl:LinkedTypes setup) {st:State Rest Info Iface Impl}
 (hp:∀s∈services,ProxyFactories setup s.desc)
 {staged:Staged Rest Info Impl} (h:StagedFor setup st services staged) :
 (∀t∈staged.stagedTools.flatten,Ready t) ∧
 (∀fullName methodName,(∃t∈staged.stagedTools.flatten,
   t.serviceFullName=fullName ∧ t.methodName=methodName) ↔
  ∃s∈services,SelectedMethod setup s.desc fullName methodName) ∧
 ∃st',commit setup st (services.zip staged.stagedTools)=(none,st') ∧
  Committed st st' services staged.stagedTools.flatten := by
 have htl:Forall₂ (ToolsOf setup) services staged.stagedTools:=
  ListRelations.forall₂_imp_of_mem h.tools fun s hs tools htl=>
   toolsOf_of_ok hl (hp s hs) htl
 have hr:∀t∈staged.stagedTools.flatten,Ready t:=by
  intro t ht
  obtain ⟨tools,ht',ht⟩:=List.mem_flatten.1 ht
  obtain ⟨s,-,hs⟩:=ListRelations.forall₂_mem_right htl ht'
  exact hs.ready t ht
 have hf:(services.zip staged.stagedTools).map (·.1)=services:=
  map_fst_zip htl.length_eq.le
 have hsn:(services.zip staged.stagedTools).map (·.2)=staged.stagedTools:=
  map_snd_zip htl.length_eq.ge
 refine ⟨hr,?_,?_⟩
 · intro fullName methodName
   constructor
   · rintro ⟨t,ht,hn⟩
     obtain ⟨tools,ht',ht⟩:=List.mem_flatten.1 ht
     obtain ⟨s,hs,hof⟩:=ListRelations.forall₂_mem_right htl ht'
     exact ⟨s,hs,(hof.methods fullName methodName).1 ⟨t,ht,hn⟩⟩
   · rintro ⟨s,hs,hsl⟩
     obtain ⟨tools,ht',hof⟩:=ListRelations.forall₂_mem_left htl hs
     obtain ⟨t,ht,hn⟩:=(hof.methods fullName methodName).2 hsl
     exact ⟨t,List.mem_flatten.2 ⟨tools,ht',ht⟩,hn⟩
 · have hc:=@commit_ready _ _ _ _ _ setup st (services.zip staged.stagedTools)
   have hnm:(services.zip staged.stagedTools).map (·.1.desc.serviceName) =
     services.map (·.desc.serviceName):=by
    rw [←hf,map_map,hf]
    rfl
   rw [hf,hsn,hnm] at hc
   exact hc h.distinct hr h.toolNames h.fresh

structure RegisteredAll (setup:Setup Rest Info Iface Impl) (st st':State Rest Info Iface Impl)
  (registrations:List (Registration Iface Impl)) (services:List (Service Iface Impl))
  (added:List (Tool Rest Info Impl)) : Prop where
 listed : registrations=services.map fun s=>⟨some s.desc,some s.impl⟩
 committed : Committed st st' services added
 named : ∀t∈added,t.name=t.serviceFullName++"."++t.methodName
 methods : ∀fullName methodName,
  (∃t∈added,t.serviceFullName=fullName ∧ t.methodName=methodName) ↔
   ∃s∈services,SelectedMethod setup s.desc fullName methodName

lemma registerServices_cases (hln:LinkedTypes setup)
 (hpr:∀r∈registrations,∀desc,r.desc=some desc → ProxyFactories setup desc)
 (st:State Rest Info Iface Impl) (subject:String) :
 (∃err,registerServices setup st registrations subject=(some err,st)) ∨
  ∃st' services added,registerServices setup st registrations subject=(none,st') ∧
   RegisteredAll setup st st' registrations services added := by
 by_cases hem : registrations=[]
 · subst hem
   refine .inr ⟨st,[],[],rfl,rfl,?_,by simp,by simp⟩
   exact ⟨rfl,by simp,by simp,fun _ _=>rfl,by simp,by simp,by simp⟩
 · rw [registerServices,if_neg hem]
   split
   · exact .inl ⟨_,rfl⟩
   · next services hsr=>
     split_ifs
     · exact .inl ⟨_,rfl⟩
     · dsimp only
       split
       · exact .inl ⟨_,rfl⟩
       · next staged hst=>
         have hl:=registrations_eq hsr
         have hp:∀s∈services,ProxyFactories setup s.desc:=by
          intro s hs
          refine hpr ⟨some s.desc,some s.impl⟩ ?_ s.desc rfl
          rw [hl]
          exact mem_map_of_mem hs
         obtain ⟨hr,hm,st',hcm,hc⟩:=
          commit_staged hln hp (stagedFor_foldlM hst)
         exact .inr ⟨st',services,_,hcm,hl,hc,
          fun t ht=>(hr t ht).named,hm⟩

/-- A registration that fails changes nothing; one that succeeds registers every service and adds one
tool for each selected method of theirs, and no other; and after a freeze each one fails. -/
theorem registration_all_or_nothing (hlinked:LinkedTypes setup) {registrations:List (Registration Iface Impl)}
  (hproxy:∀r∈registrations,∀desc,r.desc=some desc → ProxyFactories setup desc)
  (st:State Rest Info Iface Impl) (subject:String) :
  (∀err st',registerServices setup st registrations subject=(some err,st') → st'=st) ∧
  (∀st',registerServices setup st registrations subject=(none,st') →
   ∃services added,RegisteredAll setup st st' registrations services added) ∧
  (registrations≠[] →
   ∃err,registerServices setup (freeze st) registrations subject=(some err,freeze st)) := by
 have hc:=registerServices_cases hlinked hproxy st subject
 refine ⟨?_,?_,?_⟩
 · intro err st' hrg
   obtain ⟨err',heq⟩|⟨st'',services,added,heq,-⟩:=hc
   · cases heq.symm.trans hrg
     rfl
   · cases heq.symm.trans hrg
 · intro st' hrg
   obtain ⟨err',heq⟩|⟨st'',services,added,heq,hr⟩:=hc
   · cases heq.symm.trans hrg
   · cases heq.symm.trans hrg
     exact ⟨services,added,hr⟩
 · intro hne
   rw [registerServices,if_neg hne]
   split
   · exact ⟨_,rfl⟩
   · exact ⟨_,rfl⟩
end

def shopFile : FileDescriptor Unit Unit where
 proto :=
  { path := "shop.proto"
    messages:=[⟨"shop.Order",[.message "shop.Order"]⟩]
    enums:=[]
    services:=[⟨"shop.Shop",[⟨"Get","shop.Order","shop.Order"⟩]⟩]
    rest:=() }
 sourceCodeInfo:=none

def shopRegistry : Registry Unit Unit where
 files:=[shopFile]
 path_ne := by decide
 paths_nodup := by decide
 names_nodup := by decide
 fields_resolve := by
  simp only [mem_singleton,shopFile,forall_eq]
  exact ⟨_,rfl⟩
 methods_resolve := by
  simp only [mem_singleton,shopFile,forall_eq]
  exact ⟨⟨_,rfl⟩,⟨_,rfl⟩⟩

def shopSetup : Setup Unit Unit Bool Unit where
 image:=some
  { services:=AList.singleton "shop.Shop"
     ⟨"shop.Shop",AList.singleton "Get" ⟨"shop.Order","shop.Order","",false,false⟩⟩
    files:=shopRegistry }
 linked:=shopRegistry
 types name:=(findMessage [shopFile] name).elim .notFound .found
 env:={}
 includes:=[]
 excludes:=[]
 projected:=true
 implements _ _:=true
 implName _ := "main.shop"
 ifaceName _ := "shop.ShopServer"

def shopDesc : ServiceDesc Bool:=⟨"shop.Shop",some false,[⟨"Get",true⟩],[]⟩

lemma shop_linkedTypes : LinkedTypes shopSetup := by
 intro name message h
 exact .inr (congrArg (·.elim LinkedType.notFound LinkedType.found) h)

lemma shop_proxies {registrations : List (Registration Bool Unit)}
 (h : ∀r∈registrations,r.desc.all (·.handlerType=some false)) :
 ∀r∈registrations,∀desc,r.desc=some desc → ProxyFactories shopSetup desc := by
 intro r hr desc hd hp
 have hf:=h r hr
 rw [hd,Option.all_some,hp] at hf
 cases hf

def shop : Registration Bool Unit:=⟨some shopDesc,some ()⟩

/-- A service that the image does not hold, which gets no tool. -/
def health (name:String) : Registration Bool Unit:=⟨some ⟨name,some false,[],[]⟩,some ()⟩

def checkedServer : State Unit Unit Bool Unit := (registerServices shopSetup newServerWithFDS [health "Ready"] "Ready").2

/-- Two services after an earlier one, and a call whose second service is that one. -/
theorem shop_registered :
  (∃st' services added,registerServices shopSetup checkedServer [shop,health "Live"] "shop" = (none,st') ∧
   RegisteredAll shopSetup checkedServer st' [shop,health "Live"] services added) ∧
  ∃err,registerServices shopSetup checkedServer [shop,health "Ready"] "shop" = (some err,checkedServer) := by
 constructor
 · have hrg:registerServices shopSetup checkedServer [shop,health "Live"] "shop" = (none,_):=
    Prod.ext (Option.isNone_iff_eq_none.1 (by decide)) rfl
   obtain ⟨services,added,ha⟩ :=
    (registration_all_or_nothing shop_linkedTypes (shop_proxies (by decide)) checkedServer "shop").2.1 _ hrg
   exact ⟨_,services,added,hrg,ha⟩
 · have hs:(registerServices shopSetup checkedServer [shop,health "Ready"] "shop").1.isSome=true := by decide
   obtain ⟨err,he⟩:=Option.isSome_iff_exists.1 hs
   have hst:=(registration_all_or_nothing shop_linkedTypes (shop_proxies (by decide)) checkedServer "shop").1 err _
    (Prod.ext he rfl)
   exact ⟨err,Prod.ext he hst⟩
end InvariantProtocol.ServiceRegistration
