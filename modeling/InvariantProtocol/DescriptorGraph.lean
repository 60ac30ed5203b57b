import InvariantProtocol.GoResult
import InvariantProtocol.GraphSearch
import Mathlib.Data.List.AList
import Mathlib.Data.List.Sort
/-! The files that define what the requests and responses of a service are made of. What a file declares
beside messages, enums and services is of type `Rest`, its source information of type `Info`. -/
namespace InvariantProtocol.DescriptorGraph
open GoResult GraphSearch
open List hiding tail

inductive FieldType where
 | message (fullName:String)
 | group (fullName:String)
 | enum (fullName:String)
 | scalar
 deriving DecidableEq

structure MessageProto where
 fullName : String
 fields : List FieldType
 deriving DecidableEq

structure MethodProto where
 name : String
 inputType : String
 outputType : String
 deriving DecidableEq

structure ServiceProto where
 fullName : String
 methods : List MethodProto
 deriving DecidableEq

/-- Nested messages and enums are listed with the others. -/
structure FileProto (Rest:Type) where
 path : String
 messages : List MessageProto
 enums : List String
 services : List ServiceProto
 rest : Rest
 deriving DecidableEq

structure FileDescriptor (Rest Info:Type) where
 proto : FileProto Rest
 sourceCodeInfo : Option Info

structure MessageDescriptor (Rest Info:Type) where
 parentFile : FileDescriptor Rest Info
 proto : MessageProto

structure ServiceDescriptor (Rest Info:Type) where
 parentFile : FileDescriptor Rest Info
 proto : ServiceProto

variable {Rest Info:Type}
def FileDescriptor.path (file:FileDescriptor Rest Info) : String:=file.proto.path

def FileDescriptor.names (file:FileDescriptor Rest Info) : List String :=
 file.proto.messages.map (·.fullName)++file.proto.enums++file.proto.services.map (·.fullName)

section
variable (files:List (FileDescriptor Rest Info))
def findMessage (fullName:String) : Option (MessageDescriptor Rest Info) :=
 files.findSome? fun file=>
  (file.proto.messages.find? (·.fullName=fullName)).map fun message=>⟨file,message⟩

def findEnumFile (fullName:String) : Option (FileDescriptor Rest Info) :=
 files.find? fun file=>fullName∈file.proto.enums

def findService (fullName:String) : Option (ServiceDescriptor Rest Info) :=
 files.findSome? fun file=>
  (file.proto.services.find? (·.fullName=fullName)).map fun service=>⟨file,service⟩

def Resolves : FieldType → Prop
 | .message name=>∃message,findMessage files name=some message
 | .group name=>∃message,findMessage files name=some message
 | .enum name=>∃file,findEnumFile files name=some file
 | .scalar=>True
end

/-- `protoregistry.Files`: a path is that of one file, a full name has one definition, and every
reference is resolved. -/
structure Registry (Rest Info:Type) where
 files : List (FileDescriptor Rest Info)
 path_ne : ∀file∈files,file.path≠""
 paths_nodup : (files.map (·.path)).Nodup
 names_nodup : (files.flatMap (·.names)).Nodup
 fields_resolve : ∀file∈files,∀message∈file.proto.messages,∀field∈message.fields,
  Resolves files field
 methods_resolve : ∀file∈files,∀service∈file.proto.services,∀method∈service.methods,
  (∃message,findMessage files method.inputType=some message) ∧
   ∃message,findMessage files method.outputType=some message

abbrev FileMap (Rest Info:Type):=AList fun _ : String=>FileDescriptor Rest Info

def addFile (files:FileMap Rest Info) (file:FileDescriptor Rest Info) : FileMap Rest Info :=
 files.insert file.path file

section
variable (reg:Registry Rest Info)
/-- `none` stands for a search that is not over after `fuel` nested calls. -/
def addReachableMessageFiles : ℕ → Found String (FileMap Rest Info) → MessageDescriptor Rest Info →
  Option (Found String (FileMap Rest Info))
 | 0,_,_=>none
 | fuel+1,found,message=>
  if message.proto.fullName∈found.seen then some found
  else
   message.proto.fields.foldlM
    (fun found field=>
     match field with
     | .message name | .group name=>
      match findMessage reg.files name with
      | some next=>addReachableMessageFiles fuel found next
      | none=>some found
     | .enum name=>
      match findEnumFile reg.files name with
      | some file=>some { found with out:=addFile found.out file }
      | none=>some found
     | .scalar=>some found)
    { seen:=message.proto.fullName::found.seen,out:=addFile found.out message.parentFile }

/-- One more than the number of messages, which is enough. -/
def searchFuel : ℕ:=(reg.files.flatMap (·.proto.messages)).length+1

def reachableMessageFiles (message:MessageDescriptor Rest Info) : Option (FileMap Rest Info) :=
 (addReachableMessageFiles reg (searchFuel reg) ⟨[],∅⟩ message).map (·.out)

def addNamed (found:Found String (FileMap Rest Info)) (fullName:String) :
  Option (Found String (FileMap Rest Info)) :=
 match findMessage reg.files fullName with
 | some message=>addReachableMessageFiles reg (searchFuel reg) found message
 | none=>some found

def reachableServiceFiles (service:ServiceDescriptor Rest Info) : Option (FileMap Rest Info) :=
 (service.proto.methods.foldlM
  (fun found method=>(addNamed reg found method.inputType).bind fun found=>
   addNamed reg found method.outputType)
  ⟨[],addFile ∅ service.parentFile⟩).map (·.out)
end

section
variable [DecidableEq Rest]
def descriptorGraphMismatch (generated runtime:FileMap Rest Info) : String :=
 if generated.entries.length≠runtime.entries.length then "<reachable graph>"
 else
  ((generated.keys.insertionSort (· ≤ ·)).find? fun path=>
   (runtime.lookup path).all fun runtimeFile=>
    (generated.lookup path).any fun file=>file.proto≠runtimeFile.proto).getD ""

/-- The answer of `protoregistry.GlobalTypes.FindMessageByName`. -/
inductive LinkedType (Rest Info:Type) where
 | notFound
 | failed (cause:GoError)
 | found (descriptor:MessageDescriptor Rest Info)

inductive Factory (Rest Info:Type) where
 | dynamic (descriptor:MessageDescriptor Rest Info)
 | generated (descriptor:MessageDescriptor Rest Info)

def checkedMessageFactory (types:String → LinkedType Rest Info)
  (linked runtime:Registry Rest Info) (descriptor:MessageDescriptor Rest Info) :
  Result (Factory Rest Info) :=
 match types descriptor.proto.fullName with
 | .notFound=>.ok (.dynamic descriptor)
 | .failed cause=>
  .error (.wrapf "invariant: resolve linked generated message %q: %w"
   [.str descriptor.proto.fullName] cause)
 | .found message=>
  match reachableMessageFiles linked message,reachableMessageFiles runtime descriptor with
  | some generated,some files=>
   let mismatch:=descriptorGraphMismatch generated files
   if mismatch≠"" then
    .error (.errorf
     "invariant: linked generated message %q protobuf file %q disagrees with descriptor.binpb"
     [.str descriptor.proto.fullName,.str mismatch])
   else .ok (.generated message)
  | _,_=>.error .exhausted
end

section
variable {reg:Registry Rest Info}
def Registered (reg:Registry Rest Info) (d:MessageDescriptor Rest Info) : Prop :=
 d.parentFile∈reg.files ∧ d.proto∈d.parentFile.proto.messages

variable {f g:FileDescriptor Rest Info} {d:MessageDescriptor Rest Info} {name:String}
lemma file_of_name (hf:f∈reg.files) (hg:g∈reg.files) (hfn:name∈f.names) (hgn:name∈g.names) : f=g := by
 by_contra hne
 have hs:Std.Symm (Function.onFun List.Disjoint (@FileDescriptor.names Rest Info)):=
  ⟨fun _ _ h _ hy hx=>h hx hy⟩
 exact (List.nodup_flatMap.1 reg.names_nodup).2.forall hf hg hne hfn hgn

variable {file:FileDescriptor Rest Info}
lemma names_nodup (h:file∈reg.files) : file.names.Nodup :=
 (List.nodup_flatMap.1 reg.names_nodup).1 file h

lemma message_mem_names {message:MessageProto} (h:message∈file.proto.messages) :
 message.fullName∈file.names :=
 mem_append_left _ (mem_append_left _ (mem_map_of_mem h))

lemma enum_mem_names (h:name∈file.proto.enums) : name∈file.names :=
 mem_append_left _ (mem_append_right _ h)

lemma service_mem_names {service:ServiceProto} (h:service∈file.proto.services) :
 service.fullName∈file.names :=
 mem_append_right _ (mem_map_of_mem h)

lemma registered_unique {d':MessageDescriptor Rest Info} (h:Registered reg d) (h':Registered reg d')
 (hn:d.proto.fullName=d'.proto.fullName) : d=d' := by
 have hf:d.parentFile=d'.parentFile:=
  file_of_name h.1 h'.1 (message_mem_names h.2) (hn ▸ message_mem_names h'.2)
 have hm:(d.parentFile.proto.messages.map (·.fullName)).Nodup:=
  (List.nodup_append.1 (List.nodup_append.1 (names_nodup h.1)).1).1
 have hp:d.proto=d'.proto:=
  inj_on_of_nodup_map hm h.2 (hf ▸ h'.2) hn
 cases d
 cases d'
 simp_all

lemma findMessage_eq_some :
 findMessage reg.files name=some d ↔ Registered reg d ∧ d.proto.fullName=name := by
 have hs:∀d,findMessage reg.files name=some d →
   Registered reg d ∧ d.proto.fullName=name:=by
  intro d h
  obtain ⟨file,hfl,hd⟩:=List.exists_of_findSome?_eq_some h
  obtain ⟨message,hm,rfl⟩:=Option.map_eq_some_iff.1 hd
  exact ⟨⟨hfl,List.mem_of_find?_eq_some hm⟩,by simpa using List.find?_some hm⟩
 refine ⟨hs d,?_⟩
 rintro ⟨hd,rfl⟩
 cases hf : findMessage reg.files d.proto.fullName with
 | none=>
  have hn:=List.findSome?_eq_none_iff.1 hf d.parentFile hd.1
  simp only [Option.map_eq_none_iff,List.find?_eq_none,decide_eq_true_eq] at hn
  exact absurd rfl (hn d.proto hd.2)
 | some d' =>
  obtain ⟨hd',hnm⟩:=hs d' hf
  rw [registered_unique hd' hd hnm]

lemma findEnumFile_eq_some :
 findEnumFile reg.files name=some file ↔ file∈reg.files ∧ name∈file.proto.enums := by
 have hs:∀file,findEnumFile reg.files name=some file →
   file∈reg.files ∧ name∈file.proto.enums:=fun file h=>
  ⟨List.mem_of_find?_eq_some h,by simpa using List.find?_some h⟩
 refine ⟨hs file,?_⟩
 rintro ⟨hf,hn⟩
 cases hfn : findEnumFile reg.files name with
 | none=>
  have hnn:=List.find?_eq_none.1 hfn file hf
  exact absurd hn (by simpa using hnn)
 | some file' =>
  obtain ⟨hf',hn'⟩:=hs file' hfn
  rw [file_of_name hf' hf (enum_mem_names hn') (enum_mem_names hn)]
end

section
variable (reg:Registry Rest Info)
def Refers (x y:MessageDescriptor Rest Info) : Prop :=
 ∃name,(.message name∈x.proto.fields ∨ .group name∈x.proto.fields) ∧
  findMessage reg.files name=some y

/-- The file defines a message that can be reached from the first one, or the enum of a field of
such a message. -/
def DefinesReachable (message:MessageDescriptor Rest Info) (file:FileDescriptor Rest Info) :
  Prop :=
 ∃x,Relation.ReflTransGen (Refers reg) message x ∧
  (x.parentFile=file ∨ ∃name,.enum name∈x.proto.fields ∧ findEnumFile reg.files name=some file)

def fieldSteps : FieldType → List (MessageDescriptor Rest Info ⊕ FileDescriptor Rest Info)
 | .message name | .group name=>(findMessage reg.files name).toList.map .inl
 | .enum name=>(findEnumFile reg.files name).toList.map .inr
 | .scalar=>[]

def graph : Graph (MessageDescriptor Rest Info) String (FileDescriptor Rest Info) where
 key d:=d.proto.fullName
 steps d:=.inr d.parentFile::d.proto.fields.flatMap (fieldSteps reg)

variable {reg}
lemma foldlM_flatMap {α β σ:Type} (f:σ → β → Option σ) (steps:α → List β) (xs:List α) (s:σ) :
 (xs.flatMap steps).foldlM f s=xs.foldlM (fun s x=>(steps x).foldlM f s) s := by
 induction xs generalizing s with
 | nil=>rfl
 | cons x xs ih=>simp only [flatMap_cons,foldlM_append,foldlM_cons,ih]

lemma addReachableMessageFiles_eq (fuel:ℕ) (found:Found String (FileMap Rest Info))
 (message:MessageDescriptor Rest Info) : addReachableMessageFiles reg fuel found message =
  search (graph reg) addFile fuel found message := by
 induction fuel generalizing found message with
 | zero=>rfl
 | succ fuel ih=>
  rw [addReachableMessageFiles,search]
  refine if_congr Iff.rfl rfl ?_
  have hs:(graph reg).steps message =
    .inr message.parentFile::message.proto.fields.flatMap (fieldSteps reg):=rfl
  rw [hs,foldlM_cons,follow,Option.bind_eq_bind,Option.bind_some,foldlM_flatMap]
  congr 1
  funext found field
  cases field with
  | message name=>
   cases hn : findMessage reg.files name <;> simp [fieldSteps,hn,follow,ih]
  | group name=>
   cases hn : findMessage reg.files name <;> simp [fieldSteps,hn,follow,ih]
  | enum name=>
   cases hn : findEnumFile reg.files name <;> simp [fieldSteps,hn,follow]
  | scalar=>simp [fieldSteps]

variable {x y:MessageDescriptor Rest Info} {file:FileDescriptor Rest Info}
  {service:ServiceDescriptor Rest Info}
lemma mem_steps_inl : .inl y∈(graph reg).steps x ↔ Refers reg x y := by
 have hf:∀field,.inl y∈fieldSteps reg field ↔
   ∃name,(field=.message name ∨ field=.group name) ∧ findMessage reg.files name=some y:=by
  intro field
  cases field <;> simp [fieldSteps]
 simp only [graph,mem_cons,reduceCtorEq,false_or,mem_flatMap,hf,Refers]
 constructor
 · rintro ⟨field,hm,name,rfl|rfl,hn⟩
   · exact ⟨name,.inl hm,hn⟩
   · exact ⟨name,.inr hm,hn⟩
 · rintro ⟨name,hm|hm,hn⟩
   · exact ⟨_,hm,name,.inl rfl,hn⟩
   · exact ⟨_,hm,name,.inr rfl,hn⟩

lemma mem_steps_inr : .inr file∈(graph reg).steps x ↔
  x.parentFile=file ∨ ∃name,.enum name∈x.proto.fields ∧
   findEnumFile reg.files name=some file := by
 have hf:∀field,.inr file∈fieldSteps reg field ↔
   ∃name,field=.enum name ∧ findEnumFile reg.files name=some file:=by
  intro field
  cases field <;> simp [fieldSteps]
 simp only [graph,mem_cons,Sum.inr.injEq,mem_flatMap,hf,@eq_comm _ file]
 refine or_congr_right ⟨?_,?_⟩
 · rintro ⟨_,hm,name,rfl,hn⟩
   exact ⟨name,hm,hn⟩
 · rintro ⟨name,hm,hn⟩
   exact ⟨_,hm,name,rfl,hn⟩

lemma reaches_iff : (graph reg).Reaches x y ↔ Relation.ReflTransGen (Refers reg) x y := by
 have hed:(graph reg).Edge=Refers reg:=by
  funext x y
  exact propext mem_steps_inl
 rw [Graph.Reaches,hed]

lemma registered_of_refers (h:Refers reg x y) : Registered reg y := by
 obtain ⟨name,-,hn⟩:=h
 exact (findMessage_eq_some.1 hn).1

lemma registered_of_reaches (hx:Registered reg x) (h:Relation.ReflTransGen (Refers reg) x y) :
 Registered reg y := by
 cases h with
 | refl=>exact hx
 | tail _ hl=>exact registered_of_refers hl

variable {message:MessageDescriptor Rest Info}
lemma file_mem_of_definesReachable (h:Registered reg message)
 (hf:DefinesReachable reg message file) : file∈reg.files := by
 obtain ⟨x,hx,rfl|⟨name,-,hn⟩⟩:=hf
 · exact (registered_of_reaches h hx).1
 · exact (findEnumFile_eq_some.1 hn).1

lemma lookup_foldl {files:List (FileDescriptor Rest Info)} (h:∀f∈files,f∈reg.files)
 {start:FileMap Rest Info} (hs:∀path f,start.lookup path=some f → f∈reg.files ∧ f.path=path) {path:String} :
 (files.foldl addFile start).lookup path=some file ↔
  start.lookup path=some file ∨ file∈files ∧ file.path=path := by
 induction files generalizing start with
 | nil=>simp
 | cons f files ih=>
  rw [forall_mem_cons] at h
  have hn:∀path g,(addFile start f).lookup path=some g → g∈reg.files ∧ g.path=path:=by
   intro path g hg
   by_cases hp : path=f.path
   · subst hp
     rw [addFile,AList.lookup_insert,Option.some.injEq] at hg
     exact hg ▸ ⟨h.1,rfl⟩
   · rw [addFile,AList.lookup_insert_ne hp] at hg
     exact hs path g hg
  rw [foldl_cons,ih h.2 hn,mem_cons,or_and_right,←or_assoc]
  refine or_congr_left ?_
  by_cases hp : path=f.path
  · subst hp
    rw [addFile,AList.lookup_insert,Option.some.injEq]
    constructor
    · rintro rfl
      exact .inr ⟨rfl,rfl⟩
    · rintro (ho|⟨rfl,-⟩)
      · obtain ⟨hm,hsm⟩:=hs _ _ ho
        exact inj_on_of_nodup_map reg.paths_nodup h.1 hm hsm.symm
      · rfl
  · rw [addFile,AList.lookup_insert_ne hp]
    refine (or_iff_left ?_).symm
    rintro ⟨rfl,rfl⟩
    exact hp rfl

def messageNames (reg:Registry Rest Info) : List String :=
 (reg.files.flatMap (·.proto.messages)).map (·.fullName)

lemma mem_messageNames {d:MessageDescriptor Rest Info} (h:Registered reg d) :
 (graph reg).key d∈messageNames reg :=
 mem_map_of_mem (List.mem_flatMap.2 ⟨_,h.1,h.2⟩)

lemma unseen_lt_searchFuel (found:Found String (FileMap Rest Info)) :
 unseen (messageNames reg) found<searchFuel reg := by
 have hle:unseen (messageNames reg) found≤(messageNames reg).length:=length_filter_le _ _
 rw [messageNames,length_map] at hle
 exact Nat.lt_succ_of_le hle

variable {steps:List (MessageDescriptor Rest Info ⊕ FileDescriptor Rest Info)}
/-- With enough fuel a sequence of searches returns the files that it reaches. -/
theorem collects {fuel:ℕ} (hfl:searchFuel reg≤fuel)
 (hm:∀w,.inl w∈steps → Registered reg w) (hfiles:∀f,.inr f∈steps → f∈reg.files) :
 ∃found,steps.foldlM (follow (search (graph reg) addFile fuel) addFile) ⟨[],∅⟩=some found ∧
  ∀path file,found.out.lookup path=some file ↔ file.path=path ∧
   (.inr file∈steps ∨ ∃w,.inl w∈steps ∧ DefinesReachable reg w file) := by
 have ht:∀(found:Found String (FileMap Rest Info)) v,(graph reg).key v∈messageNames reg →
   unseen (messageNames reg) found<fuel →
   ∃found',search (graph reg) addFile fuel found v=some found':=by
  intro found v hv hn
  exact search_isSome (fun x y _ hy=>mem_messageNames (registered_of_refers (mem_steps_inl.1 hy))) hv hn
 obtain ⟨found,hfn⟩:=foldlM_isSome (fun f v f' => explored_search) ht
  (fun w hw=>mem_messageNames (hm w hw))
  (Nat.lt_of_lt_of_le (unseen_lt_searchFuel ⟨[],∅⟩) hfl)
 refine ⟨found,hfn,fun path file=>?_⟩
 obtain ⟨visited,emitted,hex⟩:=explored_foldlM (fun f v f' => explored_search) hfn
 have hvs:∀x,x∈visited ↔ ∃w,.inl w∈steps ∧ (graph reg).Reaches w x:=fun x=>
  hex.mem_visited rfl hm
   (fun x y _ hy=>registered_of_refers (mem_steps_inl.1 hy)) fun x y=>registered_unique
 have hem:∀f,f∈emitted ↔
   .inr f∈steps ∨ ∃w,.inl w∈steps ∧ DefinesReachable reg w f:=by
  intro f
  rw [hex.emits]
  refine or_congr_right ?_
  simp only [hvs,reaches_iff,mem_steps_inr,DefinesReachable]
  constructor
  · rintro ⟨x,⟨w,hw,hwx⟩,hf⟩
    exact ⟨w,hw,x,hwx,hf⟩
  · rintro ⟨w,hw,x,hwx,hf⟩
    exact ⟨x,⟨w,hw,hwx⟩,hf⟩
 have hmm:∀f∈emitted,f∈reg.files:=by
  intro f hf
  obtain hf|⟨w,hw,hf⟩:=(hem f).1 hf
  · exact hfiles f hf
  · exact file_mem_of_definesReachable (hm w hw) hf
 rw [hex.out,lookup_foldl hmm (by simp),AList.lookup_empty,hem,and_comm]
 simp

lemma addReachableMessageFiles_spec (h:Registered reg message) {fuel:ℕ} (hfl:searchFuel reg≤fuel) :
 ∃found,addReachableMessageFiles reg fuel ⟨[],∅⟩ message=some found ∧
  ∀path file,found.out.lookup path=some file ↔
   file.path=path ∧ DefinesReachable reg message file := by
 obtain ⟨found,hf,hfiles⟩:=@collects _ _ reg [.inl message] fuel hfl
  (by simpa using h) (by simp)
 refine ⟨found,?_,by simpa using hfiles⟩
 rw [addReachableMessageFiles_eq]
 simpa [follow] using hf

lemma reachableMessageFiles_spec (h:Registered reg message) :
 ∃files,reachableMessageFiles reg message=some files ∧
  ∀path file,files.lookup path=some file ↔
   file.path=path ∧ DefinesReachable reg message file := by
 obtain ⟨found,hf,hfiles⟩:=addReachableMessageFiles_spec h (Nat.le_refl _)
 exact ⟨found.out,by rw [reachableMessageFiles,hf,Option.map_some],hfiles⟩

def ServiceRegistered (reg:Registry Rest Info) (service:ServiceDescriptor Rest Info) : Prop :=
 service.parentFile∈reg.files ∧ service.proto∈service.parentFile.proto.services

def Uses (service:ServiceProto) (name:String) : Prop :=
 ∃method∈service.methods,name=method.inputType ∨ name=method.outputType

def nameSteps (reg:Registry Rest Info) (name:String) :
  List (MessageDescriptor Rest Info ⊕ FileDescriptor Rest Info) :=
 (findMessage reg.files name).toList.map .inl

def serviceSteps (reg:Registry Rest Info) (service:ServiceDescriptor Rest Info) :
  List (MessageDescriptor Rest Info ⊕ FileDescriptor Rest Info) :=
 .inr service.parentFile::service.proto.methods.flatMap fun method=>
  nameSteps reg method.inputType++nameSteps reg method.outputType

lemma addNamed_eq (found:Found String (FileMap Rest Info)) (name:String) : addNamed reg found name =
  (nameSteps reg name).foldlM (follow (search (graph reg) addFile (searchFuel reg)) addFile) found := by
 cases hn : findMessage reg.files name <;>
  simp [addNamed,nameSteps,hn,follow,addReachableMessageFiles_eq]

lemma reachableServiceFiles_eq (service:ServiceDescriptor Rest Info) : reachableServiceFiles reg service =
  ((serviceSteps reg service).foldlM
   (follow (search (graph reg) addFile (searchFuel reg)) addFile) ⟨[],∅⟩).map (·.out) := by
 rw [reachableServiceFiles,serviceSteps,foldlM_cons,follow,Option.bind_eq_bind,Option.bind_some,
  foldlM_flatMap]
 simp only [foldlM_append,addNamed_eq,Option.bind_eq_bind]

lemma mem_serviceSteps {w:MessageDescriptor Rest Info} : .inl w∈serviceSteps reg service ↔
  ∃name,Uses service.proto name ∧ findMessage reg.files name=some w := by
 simp only [serviceSteps,nameSteps,mem_cons,reduceCtorEq,false_or,mem_flatMap,mem_append,
  mem_map,Option.mem_toList,Sum.inl.injEq,exists_eq_right,Uses]
 constructor
 · rintro ⟨method,hmethod,hw|hw⟩
   · exact ⟨_,⟨method,hmethod,.inl rfl⟩,hw⟩
   · exact ⟨_,⟨method,hmethod,.inr rfl⟩,hw⟩
 · rintro ⟨_,⟨method,hmethod,rfl|rfl⟩,hw⟩
   · exact ⟨method,hmethod,.inl hw⟩
   · exact ⟨method,hmethod,.inr hw⟩

lemma mem_serviceSteps_inr : .inr file∈serviceSteps reg service ↔ file=service.parentFile := by
 simp [serviceSteps,nameSteps]

/-- The file defines the service, or something that a request or response is made of. -/
def DefinesUsed (reg:Registry Rest Info) (service:ServiceDescriptor Rest Info)
  (file:FileDescriptor Rest Info) : Prop :=
 file=service.parentFile ∨ ∃name message,Uses service.proto name ∧
  findMessage reg.files name=some message ∧ DefinesReachable reg message file

lemma reachableServiceFiles_spec (h:ServiceRegistered reg service) :
 ∃files,reachableServiceFiles reg service=some files ∧
  ∀path file,files.lookup path=some file ↔ file.path=path ∧ DefinesUsed reg service file := by
 have hm:∀w,.inl w∈serviceSteps reg service → Registered reg w:=by
  intro w hw
  obtain ⟨name,-,hn⟩:=mem_serviceSteps.1 hw
  exact (findMessage_eq_some.1 hn).1
 have hfiles:∀f,.inr f∈serviceSteps reg service → f∈reg.files:=by
  intro f hf
  rw [mem_serviceSteps_inr.1 hf]
  exact h.1
 obtain ⟨found,hfn,hl⟩:=collects (Nat.le_refl (searchFuel reg)) hm hfiles
 refine ⟨found.out,by rw [reachableServiceFiles_eq,hfn,Option.map_some],fun path file=>?_⟩
 rw [hl,mem_serviceSteps_inr]
 simp only [mem_serviceSteps,DefinesUsed]
 refine and_congr_right fun _=>or_congr_right ?_
 constructor
 · rintro ⟨w,⟨name,hu,hn⟩,hw⟩
   exact ⟨name,w,hu,hn,hw⟩
 · rintro ⟨name,w,hu,hn,hw⟩
   exact ⟨w,⟨name,hu,hn⟩,hw⟩
end

section
variable {linked runtime:Registry Rest Info}
/-- Two descriptors of one message in files that differ in source information at most. -/
structure Twin (linked runtime:Registry Rest Info) (x y:MessageDescriptor Rest Info) : Prop where
 proto : x.proto=y.proto
 file : x.parentFile.proto=y.parentFile.proto
 left : Registered linked x
 right : Registered runtime y

/-- Every file that the service uses in the first registry is in the second one as well. -/
def Covered (linked runtime:Registry Rest Info) (service:ServiceDescriptor Rest Info) : Prop :=
 ∀file,DefinesUsed linked service file → ∃other∈runtime.files,file.proto=other.proto

def UsedBy (reg:Registry Rest Info) (service:ServiceDescriptor Rest Info)
  (x:MessageDescriptor Rest Info) : Prop :=
 ∃name message,Uses service.proto name ∧ findMessage reg.files name=some message ∧
  Relation.ReflTransGen (Refers reg) message x

variable {service:ServiceDescriptor Rest Info}
  {reg:Registry Rest Info} {x m m':MessageDescriptor Rest Info}
lemma registered_of_usedBy (h:UsedBy reg service x) : Registered reg x := by
 obtain ⟨name,message,-,hn,hr⟩:=h
 exact registered_of_reaches (findMessage_eq_some.1 hn).1 hr

lemma exists_twin (hc:Covered linked runtime service) (hx:UsedBy linked service x) :
 ∃y,Twin linked runtime x y ∧ findMessage runtime.files x.proto.fullName=some y := by
 have hr:=registered_of_usedBy hx
 obtain ⟨name,message,hu,hn,hrc⟩:=hx
 obtain ⟨other,ho,hp⟩:=hc x.parentFile
  (.inr ⟨name,message,hu,hn,x,hrc,.inl rfl⟩)
 have hrg:Registered runtime ⟨other,x.proto⟩:=⟨ho,hp ▸ hr.2⟩
 exact ⟨⟨other,x.proto⟩,⟨rfl,hp,hr,hrg⟩,findMessage_eq_some.2 ⟨hrg,rfl⟩⟩

variable {y:MessageDescriptor Rest Info} {s:ServiceDescriptor Rest Info}
lemma Twin.unique {y':MessageDescriptor Rest Info} (h:Twin linked runtime x y)
 (hy':Registered runtime y') (hn:y'.proto.fullName=x.proto.fullName) : y'=y :=
 registered_unique hy' h.right (by rw [hn,h.proto])

section
variable (hc:Covered linked runtime service)
include hc
section
variable (hm:UsedBy linked service m)
include hm
lemma reaches_twin
 (ht:Twin linked runtime m m') (hrc:Relation.ReflTransGen (Refers linked) m x) :
 ∃y,Relation.ReflTransGen (Refers runtime) m' y ∧ Twin linked runtime x y := by
 induction hrc with
 | refl=>exact ⟨m',.refl,ht⟩
 | tail hmx hxz ih=>
  obtain ⟨y,hy,hxy⟩:=ih
  obtain ⟨name,message,hu,hs,hfr⟩:=hm
  obtain ⟨z',hz',hf⟩:=exists_twin hc
   ⟨name,message,hu,hs,(hfr.trans hmx).tail hxz⟩
  obtain ⟨field,hfl,hr⟩:=hxz
  rw [(findMessage_eq_some.1 hr).2] at hf
  exact ⟨z',hy.tail ⟨field,hxy.proto ▸ hfl,hf⟩,hz'⟩

lemma reached_twin
 (ht:Twin linked runtime m m') (hrc:Relation.ReflTransGen (Refers runtime) m' y) :
 ∃x,Relation.ReflTransGen (Refers linked) m x ∧ Twin linked runtime x y := by
 induction hrc with
 | refl=>exact ⟨m,.refl,ht⟩
 | tail _ hyz ih=>
  obtain ⟨x,hx,hxy⟩:=ih
  obtain ⟨field,hf,hr⟩:=hyz
  rw [←hxy.proto] at hf
  obtain ⟨z,hz⟩ : ∃z,findMessage linked.files field=some z:=by
   obtain hf|hf:=hf
   · exact linked.fields_resolve _ hxy.left.1 _ hxy.left.2 _ hf
   · exact linked.fields_resolve _ hxy.left.1 _ hxy.left.2 _ hf
  have hxz:Refers linked x z:=⟨field,hf,hz⟩
  obtain ⟨name,message,hu,hs,hfr⟩:=hm
  obtain ⟨z',hz',-⟩:=exists_twin hc
   ⟨name,message,hu,hs,(hfr.trans hx).tail hxz⟩
  obtain ⟨hrg,hn⟩:=findMessage_eq_some.1 hr
  rw [hz'.unique hrg (hn.trans (findMessage_eq_some.1 hz).2.symm)]
  exact ⟨z,hx.tail hxz,hz'⟩

lemma definesReachable_forward
 (ht:Twin linked runtime m m') {file:FileDescriptor Rest Info} (hf:DefinesReachable linked m file) :
 ∃other,DefinesReachable runtime m' other ∧ file.proto=other.proto := by
 have hu:DefinesUsed linked service file:=by
  obtain ⟨name,message,hus,hs,hfr⟩:=hm
  obtain ⟨x,hx,hd⟩:=hf
  exact .inr ⟨name,message,hus,hs,x,hfr.trans hx,hd⟩
 obtain ⟨x,hx,hd⟩:=hf
 obtain ⟨y,hy,hxy⟩:=reaches_twin hc hm ht hx
 obtain rfl|⟨name,hfl,hn⟩:=hd
 · exact ⟨y.parentFile,⟨y,hy,.inl rfl⟩,hxy.file⟩
 · obtain ⟨other,ho,hp⟩:=hc file hu
   refine ⟨other,⟨y,hy,.inr ⟨name,hxy.proto ▸ hfl,?_⟩⟩,hp⟩
   exact findEnumFile_eq_some.2 ⟨ho,hp ▸ (findEnumFile_eq_some.1 hn).2⟩

lemma definesReachable_back
 (htw:Twin linked runtime m m') {other:FileDescriptor Rest Info} (ho:DefinesReachable runtime m' other) :
 ∃file,DefinesReachable linked m file ∧ file.proto=other.proto := by
 obtain ⟨y,hy,hd⟩:=ho
 obtain ⟨x,hx,hxy⟩:=reached_twin hc hm htw hy
 obtain rfl|⟨name,hf,hn⟩:=hd
 · exact ⟨x.parentFile,⟨x,hx,.inl rfl⟩,hxy.file⟩
 · rw [←hxy.proto] at hf
   obtain ⟨file,hfl⟩:=linked.fields_resolve _ hxy.left.1 _ hxy.left.2 _ hf
   have hr:DefinesReachable linked m file:=⟨x,hx,.inr ⟨name,hf,hfl⟩⟩
   obtain ⟨twin,ht,hp⟩:=definesReachable_forward hc hm htw hr
   have htm:=file_mem_of_definesReachable htw.right ht
   obtain ⟨hmm,hen⟩:=findEnumFile_eq_some.1 hn
   have hte:name∈twin.proto.enums:=hp ▸ (findEnumFile_eq_some.1 hfl).2
   have hs:twin=other:=
    file_of_name htm hmm (enum_mem_names hte) (enum_mem_names hen)
   exact ⟨file,hr,hs ▸ hp⟩
end
end

lemma service_unique {s':ServiceDescriptor Rest Info} (h:ServiceRegistered reg s)
 (h':ServiceRegistered reg s') (hn:s.proto.fullName=s'.proto.fullName) : s.proto=s'.proto := by
 have hf:s.parentFile=s'.parentFile:=
  file_of_name h.1 h'.1 (service_mem_names h.2) (hn ▸ service_mem_names h'.2)
 have hs:(s.parentFile.proto.services.map (·.fullName)).Nodup:=
  (List.nodup_append.1 (names_nodup h.1)).2.1
 exact inj_on_of_nodup_map hs h.2 (hf ▸ h'.2) hn

lemma serviceRegistered_of_find {name:String} (h:findService reg.files name=some s) :
 ServiceRegistered reg s ∧ s.proto.fullName=name := by
 obtain ⟨file,hf,hs⟩:=List.exists_of_findSome?_eq_some h
 obtain ⟨proto,hp,rfl⟩:=Option.map_eq_some_iff.1 hs
 exact ⟨⟨hf,List.mem_of_find?_eq_some hp⟩,by simpa using List.find?_some hp⟩

/-- Agreement on the files of a service carries over to each of its requests and responses. -/
theorem used_message_agrees (hs:ServiceRegistered linked service)
 (hc:Covered linked runtime service) {name:String} (hu:Uses service.proto name) :
 ∃m m',findMessage linked.files name=some m ∧ findMessage runtime.files name=some m' ∧
  UsedBy linked service m ∧ Twin linked runtime m m' := by
 obtain ⟨m,hm⟩ : ∃m,findMessage linked.files name=some m:=by
  obtain ⟨method,hmethod,rfl|rfl⟩:=hu
  · exact (linked.methods_resolve _ hs.1 _ hs.2 _ hmethod).1
  · exact (linked.methods_resolve _ hs.1 _ hs.2 _ hmethod).2
 have hus:UsedBy linked service m:=⟨name,m,hu,hm,.refl⟩
 obtain ⟨m',ht,hm'⟩:=exists_twin hc hus
 rw [(findMessage_eq_some.1 hm).2] at hm'
 exact ⟨m,m',hm,hm',hus,ht⟩
end

variable {files runtime:FileMap Rest Info} {m m':MessageDescriptor Rest Info}
lemma exists_lookup {path:String} : path∈files.keys ↔ ∃file,files.lookup path=some file := by
 rw [←AList.mem_keys,←AList.lookup_isSome,Option.isSome_iff_exists]

variable [DecidableEq Rest] {generated:FileMap Rest Info}
lemma mismatch_eq_empty (hpt:∀path file,generated.lookup path=some file → path≠"") :
 descriptorGraphMismatch generated runtime = "" ↔
  generated.entries.length=runtime.entries.length ∧
   ∀path file,generated.lookup path=some file →
    ∃other,runtime.lookup path=some other ∧ file.proto=other.proto := by
 unfold descriptorGraphMismatch
 split_ifs with hl
 · simp [hl]
 · simp only [not_not] at hl
   simp only [hl,true_and]
   cases hfn : (generated.keys.insertionSort (· ≤ ·)).find? fun path=>
     (runtime.lookup path).all fun runtimeFile=>
      (generated.lookup path).any fun file=>file.proto≠runtimeFile.proto with
   | none=>
    refine iff_of_true rfl fun path file hf=>?_
    have hm:path∈generated.keys.insertionSort (· ≤ ·):=
     (mem_insertionSort _).2 (exists_lookup.2 ⟨file,hf⟩)
    have hs:=List.find?_eq_none.1 hfn path hm
    cases ho : runtime.lookup path with
    | none=>simp [ho] at hs
    | some other=>exact ⟨other,rfl,by simpa [ho,hf] using hs⟩
   | some path=>
    obtain ⟨file,hf⟩:=exists_lookup.1
     ((mem_insertionSort _).1 (List.mem_of_find?_eq_some hfn))
    have hd:=List.find?_some hfn
    refine iff_of_false (hpt path file hf) fun hs=>?_
    obtain ⟨other,ho,hp⟩:=hs path file hf
    simp [ho,hf,hp] at hd

lemma mismatch_of_same (hp:∀path file,generated.lookup path=some file → path≠"")
 (hf:∀path file,generated.lookup path=some file →
  ∃other,runtime.lookup path=some other ∧ file.proto=other.proto)
 (hb:∀path other,runtime.lookup path=some other →
  ∃file,generated.lookup path=some file) : descriptorGraphMismatch generated runtime = "" := by
 refine (mismatch_eq_empty hp).2 ⟨?_,hf⟩
 have hk:∀path,path∈generated.keys ↔ path∈runtime.keys:=by
  intro path
  rw [exists_lookup,exists_lookup]
  constructor
  · rintro ⟨file,hfl⟩
    obtain ⟨other,ho,-⟩:=hf path file hfl
    exact ⟨other,ho⟩
  · rintro ⟨other,ho⟩
    exact hb path other ho
 have hpr:generated.keys.Perm runtime.keys:=
  (perm_ext_iff_of_nodup generated.keys_nodup runtime.keys_nodup).2 hk
 simpa [AList.keys,List.keys] using hpr.length_eq

variable {linked runtime:Registry Rest Info} {service:ServiceDescriptor Rest Info}
lemma message_mismatch_empty (hc:Covered linked runtime service) (hm:UsedBy linked service m)
 (ht:Twin linked runtime m m') : ∃generated files,reachableMessageFiles linked m=some generated ∧
  reachableMessageFiles runtime m'=some files ∧ descriptorGraphMismatch generated files = "" := by
 obtain ⟨generated,hg,hl⟩:=reachableMessageFiles_spec ht.left
 obtain ⟨files,hfiles,hrn⟩:=reachableMessageFiles_spec ht.right
 refine ⟨generated,files,hg,hfiles,mismatch_of_same ?_ ?_ ?_⟩
 · intro path file hf
   obtain ⟨rfl,hr⟩:=(hl path file).1 hf
   exact linked.path_ne file (file_mem_of_definesReachable ht.left hr)
 · intro path file hf
   obtain ⟨rfl,hr⟩:=(hl path file).1 hf
   obtain ⟨other,ho,hp⟩:=definesReachable_forward hc hm ht hr
   exact ⟨other,(hrn _ other).2 ⟨congrArg FileProto.path hp.symm,ho⟩,hp⟩
 · intro path other ho
   obtain ⟨rfl,hr⟩:=(hrn path other).1 ho
   obtain ⟨file,hf,hp⟩:=definesReachable_back hc hm ht hr
   exact ⟨file,(hl _ file).2 ⟨congrArg FileProto.path hp,hf⟩⟩

lemma covered_of_mismatch {runtimeService:ServiceDescriptor Rest Info}
 (hsr:ServiceRegistered linked service) (hr:ServiceRegistered runtime runtimeService)
 (hg:reachableServiceFiles linked service=some generated)
 (hfiles:reachableServiceFiles runtime runtimeService=some files)
 (hm:descriptorGraphMismatch generated files = "") : Covered linked runtime service := by
 obtain ⟨found,hf,hl⟩:=reachableServiceFiles_spec hsr
 rw [hg,Option.some.injEq] at hf
 subst hf
 obtain ⟨found,hf,hrn⟩:=reachableServiceFiles_spec hr
 rw [hfiles,Option.some.injEq] at hf
 subst hf
 have hmm:∀{reg:Registry Rest Info} {s:ServiceDescriptor Rest Info} {file},
   ServiceRegistered reg s → DefinesUsed reg s file → file∈reg.files:=by
  rintro reg s file hs (rfl|⟨name,message,-,hn,hrc⟩)
  · exact hs.1
  · exact file_mem_of_definesReachable (findMessage_eq_some.1 hn).1 hrc
 have hpt:∀path file,generated.lookup path=some file → path≠"":=by
  intro path file hfl
  obtain ⟨rfl,hu⟩:=(hl path file).1 hfl
  exact linked.path_ne file (hmm hsr hu)
 intro file hu
 obtain ⟨other,ho,hp⟩:=
  ((mismatch_eq_empty hpt).1 hm).2 _ file ((hl _ file).2 ⟨rfl,hu⟩)
 exact ⟨other,hmm hr ((hrn _ other).1 ho).2,hp⟩

lemma checkedMessageFactory_ok (hc:Covered linked runtime service) (hm:UsedBy linked service m)
 (htw:Twin linked runtime m m') {types:String → LinkedType Rest Info}
 (ht:types m'.proto.fullName=.notFound ∨ types m'.proto.fullName=.found m) :
 ∃factory,checkedMessageFactory types linked runtime m'=.ok factory := by
 obtain ht|ht:=ht
 · exact ⟨.dynamic m',by simp [checkedMessageFactory,ht]⟩
 · obtain ⟨generated,files,hg,hfiles,hms⟩:=message_mismatch_empty hc hm htw
   exact ⟨.generated m,by simp [checkedMessageFactory,ht,hg,hfiles,hms]⟩

/-- The search ends with exactly the files that define what can be reached; and where the files of a
service agree, so do the files of each request and response, for which a factory is then found. -/
theorem service_agreement_covers_messages (linked runtime:Registry Rest Info) :
  (∀(reg:Registry Rest Info) message,Registered reg message → ∀fuel,searchFuel reg≤fuel →
   ∃found,addReachableMessageFiles reg fuel ⟨[],∅⟩ message=some found ∧
    ∀path file,found.out.lookup path=some file ↔
     file.path=path ∧ DefinesReachable reg message file) ∧
  (∀name service runtimeService,findService linked.files name=some service →
   findService runtime.files name=some runtimeService →
   ∃linkedFiles runtimeGraph,reachableServiceFiles linked service=some linkedFiles ∧
    reachableServiceFiles runtime runtimeService=some runtimeGraph ∧
    (descriptorGraphMismatch linkedFiles runtimeGraph = "" →
     service.proto=runtimeService.proto ∧
     ∀type,Uses service.proto type → ∃m m',findMessage linked.files type=some m ∧
      findMessage runtime.files type=some m' ∧
      (∃generated files,reachableMessageFiles linked m=some generated ∧
       reachableMessageFiles runtime m'=some files ∧
       descriptorGraphMismatch generated files = "") ∧
      ∀types : String → LinkedType Rest Info,types type=.notFound ∨ types type=.found m →
       ∃factory,checkedMessageFactory types linked runtime m'=.ok factory)) := by
 refine ⟨fun reg message h fuel=>addReachableMessageFiles_spec h,?_⟩
 intro name service runtimeService hf hrf
 obtain ⟨hs,hn⟩:=serviceRegistered_of_find hf
 obtain ⟨hr,hrn⟩:=serviceRegistered_of_find hrf
 obtain ⟨linkedFiles,hl,-⟩:=reachableServiceFiles_spec hs
 obtain ⟨runtimeGraph,hrt,-⟩:=reachableServiceFiles_spec hr
 refine ⟨linkedFiles,runtimeGraph,hl,hrt,fun hms=>?_⟩
 have hc:=covered_of_mismatch hs hr hl hrt hms
 refine ⟨?_,fun type hus=>?_⟩
 · obtain ⟨other,ho,hp⟩:=hc service.parentFile (.inl rfl)
   have ht:ServiceRegistered runtime ⟨other,service.proto⟩:=⟨ho,hp ▸ hs.2⟩
   exact @service_unique _ _ runtime ⟨other,service.proto⟩ _ ht hr
    (hn.trans hrn.symm)
 · obtain ⟨m,m',hm,hm',hu,ht⟩:=used_message_agrees hs hc hus
   refine ⟨m,m',hm,hm',message_mismatch_empty hc hu ht,fun types htp=>?_⟩
   have hty:m'.proto.fullName=type:=(findMessage_eq_some.1 hm').2
   exact checkedMessageFactory_ok hc hu ht (by rwa [hty])
end InvariantProtocol.DescriptorGraph
