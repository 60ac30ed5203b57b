import InvariantProtocol.BundleCompiler
import InvariantProtocol.DescriptorOrder
import InvariantProtocol.CompileOutcome
namespace InvariantProtocol.BundleOrder
open ListRelations GoResult GoText DataSchema DataBundle BundleMigration ProtoDescriptor
open CompilerState CompileOutcome Reordering DescriptorOrder BundleCompiler
open List hiding le_antisymm le_total le_trans

variable {datasets:List DatasetSchema} {descriptor:List UInt8} {m:LinkedMessage}
 {name:String} {names:List String} {out:GoMap String DatasetSchema}
 {previous:Option Decoded}

/-! ### The same image in another order -/

section
variable {δ φ:Type}
structure SameDeclaration (m m':MessageDeclaration δ φ) : Prop where
 name : m.name=m'.name
 fields : m.fields.Perm m'.fields
 extensions : m.extensions=m'.extensions
 rest : m.rest=m'.rest

structure SameFile (file file':FileDeclaration δ φ) : Prop where
 package : file.package=file'.package
 messages : ReorderedBy (Tree.Reordered SameDeclaration) file.messages file'.messages
 extensions : file.extensions=file'.extensions
 rest : file.rest=file'.rest

/-- The files, the messages of a file or of a message, and the fields of a message may stand in
  another order. -/
def ReorderedImage (image image':Image δ φ) : Prop:=ReorderedBy SameFile image image'

lemma visitMessages_ok {scope:String} {messages:List (Reordering.Tree (MessageDeclaration δ φ))} :
 visitMessages scope messages=.ok () ↔ ∀m∈messages,visitMessage scope m=.ok () := by
 induction messages with
 | nil=>simp [visitMessages]
 | cons m rest ih=>
  rw [visitMessages,bind_ok,exists_unit_ok,ih,forall_mem_cons]

lemma visitMessage_same {m:Reordering.Tree (MessageDeclaration δ φ)} :
 ∀{m':Reordering.Tree (MessageDeclaration δ φ)} (scope:String),
  Tree.Reordered SameDeclaration m m' →
  (visitMessage scope m=.ok () ↔ visitMessage scope m'=.ok ()) := by
 induction m using Tree.tree_induction with
 | hnode a nested ih=>
  rintro ⟨a',nested'⟩ scope h
  obtain ⟨ho,hn⟩:=Tree.reordered_node.1 h
  simp only [visitMessage,bind_ok,exists_unit_ok,visitMessages_ok,ho.name,ho.extensions]
  refine and_congr_right fun _=>?_
  have hv:ReorderedBy (fun m m' => ∀scope,visitMessage scope m=.ok () ↔
    visitMessage scope m'=.ok ()) nested nested':=
   hn.imp fun m m' hm hm' scope=>ih m hm scope hm'
  exact hv.forall_iff fun m m' hm=>hm _

lemma validateAnnotationOptionNumbers_same {image image':Image δ φ} (h:ReorderedImage image image') :
 Agree Eq (validateAnnotationOptionNumbers image) (validateAnnotationOptionNumbers image') := by
 rw [agree_unit_iff,validateAnnotationOptionNumbers,validateAnnotationOptionNumbers,loop_unit,loop_unit]
 refine h.forall_iff fun file file' hf=>?_
 simp only [visitExtensions,bind_ok,exists_unit_ok,visitMessages_ok,hf.package,hf.extensions]
 exact and_congr_right fun _=>hf.messages.forall_iff fun m m' hm=>visitMessage_same _ hm
end

/-! ### The same registry in another order -/

structure SameLinked (m m':LinkedMessage) : Prop where
 descriptor : m'.descriptor={ m.descriptor with fields:=m'.descriptor.fields }
 fields : m.descriptor.fields.Perm m'.descriptor.fields
 dataset : m.dataset=m'.dataset

structure SameRegistry (registry registry':Registry) : Prop where
 files : ReorderedBy (ReorderedBy (Tree.Reordered SameLinked)) registry.files registry'.files
 others : ∀name,name∈registry.others ↔ name∈registry'.others

lemma sortedFields_perm {fields fields':List FieldDescriptor} (h:fields.Perm fields')
 (hn:(fields.map FieldDescriptor.number).Nodup) : sortedFields fields=sortedFields fields' := by
 have ht:Std.Total fun left right : FieldDescriptor=>
   left.number.toInt≤right.number.toInt:=⟨fun _ _=>le_total _ _⟩
 have htr:IsTrans FieldDescriptor fun left right=>
   left.number.toInt≤right.number.toInt:=⟨fun _ _ _=>le_trans⟩
 refine insertionSort_eq_of_perm h fun fd hfd fd' hf' hle hge=>?_
 exact inj_on_of_nodup_map hn hfd hf' (Int32.toInt_inj.1 (le_antisymm hle hge))

lemma SameLinked.message {m':LinkedMessage} (h:SameLinked m m')
 (hn:(m.descriptor.fields.map FieldDescriptor.number).Nodup) :
 SameMessage m.descriptor m'.descriptor := by
 have hf:∀number,m.descriptor.fieldByNumber number=m'.descriptor.fieldByNumber number:=by
  intro number
  have hr:=(reorderedBy_eq_iff.2 h.fields).find?
   (fun _ _ hfd=>congrArg FieldDescriptor.number hfd) hn number
  obtain ⟨hfd,hf'⟩|⟨fd,fd',hfd,hf',rfl⟩:=optionRel_cases hr
  · exact hfd.trans hf'.symm
  · exact hfd.trans hf'.symm
 refine ⟨?_,?_,?_,?_,?_,?_,sortedFields_perm h.fields hn,hf⟩ <;>
  rw [h.descriptor]

section
variable {registry registry':Registry} (h:SameRegistry registry registry')
include h

lemma SameRegistry.allMessages :
 ReorderedBy SameLinked (allMessages registry.files) (allMessages registry'.files) :=
 h.files.flatMap fun _ _ _ hm=>hm.flatMap fun _ _ _ ht=>ht.values

lemma SameRegistry.messages : ReorderedBy SameMessage registry.messages registry'.messages := by
 have hs:ReorderedBy (fun m m' => SameMessage m.descriptor m'.descriptor)
   (BundleCompiler.allMessages registry.files) (BundleCompiler.allMessages registry'.files):=
  h.allMessages.imp fun m _ hm hl=>hl.message (registry.numbered m hm)
 exact hs.map fun _ _ hmd=>hmd

lemma SameRegistry.find (name:String) : Option.Rel SameMessage (registry.messages.find? (·.fullName=name))
  (registry'.messages.find? (·.fullName=name)) := by
 refine h.messages.find? (fun _ _ hmd=>hmd.fullName) ?_ name
 rw [Registry.messages,map_map]
 exact registry.distinct

lemma SameRegistry.sameFiles : SameFiles ⟨registry.messages⟩ ⟨registry'.messages⟩ :=
 ⟨h.find,h.messages.length⟩

lemma findMessage_same (name:String) :
 Agree SameMessage (registry.findMessage name) (registry'.findMessage name) := by
 rw [Registry.findMessage,Registry.findMessage]
 obtain ⟨hmd,hm'⟩|⟨md,md',hmd,hm',hs⟩:=optionRel_cases (h.find name)
 · rw [hmd,hm']
   simp only [h.others]
   split_ifs <;> trivial
 · rw [hmd,hm']
   exact hs

lemma compileDataset_same (previousByMessage:GoMap String DatasetSchema) (name:String) :
 Agree Eq (compileDataset registry previousByMessage name)
  (compileDataset registry' previousByMessage name) := by
 refine (findMessage_same h name).bind fun md md' hmd=>?_
 refine (agree_rejectIf (by rw [hmd.isMapEntry])).bind fun _ _ _=>?_
 exact (compileMessage_same h.sameFiles hmd _).wrap

lemma addDataset_same (previousByMessage:GoMap String DatasetSchema) (s:BundleState) (name:String) :
 Agree Eq (addDataset registry previousByMessage s name)
  (addDataset registry' previousByMessage s name) := by
 refine (compileDataset_same h previousByMessage name).bind ?_
 rintro dataset _ rfl
 exact agree_refl
end

/-! ### Annotated messages -/

def annotatedName (m:LinkedMessage) : List String :=
 if m.dataset.isSome then [m.descriptor.fullName] else []

def KnownOptions (m:LinkedMessage) : Prop:=m.dataset.any DatasetOptions.unknown=false

lemma hasDatasetOption_ok {annotated:Bool} :
 hasDatasetOption m=.ok annotated ↔ KnownOptions m ∧ m.dataset.isSome=annotated := by
 unfold hasDatasetOption KnownOptions
 cases m.dataset with
 | none=>simp
 | some options=>
  simp only [bind_ok,rejectIf_ok,exists_const,pure_ok,Option.any_some,Option.isSome_some,
   Bool.not_eq_true]

lemma visitForest_ok {messages:List (Reordering.Tree LinkedMessage)}
 (hv:∀t∈messages,∀names,visitTree t=.ok names ↔
  (∀m∈t.values,KnownOptions m) ∧ t.values.flatMap annotatedName=names) : visitForest messages=.ok names ↔
  (∀m∈messages.flatMap Tree.values,KnownOptions m) ∧
   (messages.flatMap Tree.values).flatMap annotatedName=names := by
 induction messages generalizing names with
 | nil=>simp [visitForest]
 | cons t rest ih=>
  obtain ⟨ht,hr⟩:=List.forall_mem_cons.1 hv
  simp only [visitForest,bind_ok,pure_ok,ht,ih hr,flatMap_cons,flatMap_append,
   forall_mem_append]
  constructor
  · rintro ⟨_,⟨how,rfl⟩,_,⟨ho,rfl⟩,rfl⟩
    exact ⟨⟨how,ho⟩,rfl⟩
  · rintro ⟨⟨how,ho⟩,rfl⟩
    exact ⟨_,⟨how,rfl⟩,_,⟨ho,rfl⟩,rfl⟩

lemma visitTree_ok (t:Reordering.Tree LinkedMessage) : ∀names,visitTree t=.ok names ↔
 (∀m∈t.values,KnownOptions m) ∧ t.values.flatMap annotatedName=names := by
 induction t using Tree.tree_induction with
 | hnode m nested ih=>
  intro names
  simp only [visitTree,bind_ok,wrap_ok,pure_ok,hasDatasetOption_ok,visitForest_ok ih,
   Tree.values,Tree.forestValues_eq,forall_mem_cons,flatMap_cons]
  constructor
  · rintro ⟨_,⟨ho,rfl⟩,_,⟨hn,rfl⟩,rfl⟩
    exact ⟨⟨ho,hn⟩,rfl⟩
  · rintro ⟨⟨ho,hn⟩,rfl⟩
    exact ⟨_,⟨ho,rfl⟩,_,⟨hn,rfl⟩,rfl⟩

variable {registry:Registry} {names':List String} {registry':Registry} {rawNames:List String}
  {previousByMessage:GoMap String DatasetSchema}
lemma annotatedDatasetNames_ok : annotatedDatasetNames registry=.ok names ↔
  (∀m∈allMessages registry.files,KnownOptions m) ∧
   sortNames ((allMessages registry.files).flatMap annotatedName)=names := by
 have hfiles:∀(files:List (List (Reordering.Tree LinkedMessage))) (found:List (List String)),
   files.mapM visitForest=.ok found ↔
    (∀m∈allMessages files,KnownOptions m) ∧
     files.map (fun messages=>(messages.flatMap Tree.values).flatMap annotatedName) =
      found:=by
  intro files
  induction files with
  | nil=>simp [allMessages,pure,Except.pure]
  | cons messages rest ih=>
   intro found
   simp only [mapM_cons,bind_ok,pure_ok,ih,
    visitForest_ok fun t _=>visitTree_ok t,allMessages,flatMap_cons,
    forall_mem_append,map_cons]
   constructor
   · rintro ⟨_,⟨how,rfl⟩,_,⟨ho,rfl⟩,rfl⟩
     exact ⟨⟨how,ho⟩,rfl⟩
   · rintro ⟨⟨how,ho⟩,rfl⟩
     exact ⟨_,⟨how,rfl⟩,_,⟨ho,rfl⟩,rfl⟩
 have hf:∀files : List (List (Reordering.Tree LinkedMessage)),
   (allMessages files).flatMap annotatedName =
   (files.map fun messages=>(messages.flatMap Tree.values).flatMap annotatedName).flatten:=by
  intro files
  rw [allMessages,flatMap_assoc,flatMap_def]
 simp only [annotatedDatasetNames,bind_ok,pure_ok,hfiles,hf]
 constructor
 · rintro ⟨_,⟨hk,rfl⟩,rfl⟩
   exact ⟨hk,rfl⟩
 · rintro ⟨hk,rfl⟩
   exact ⟨_,⟨hk,rfl⟩,rfl⟩

lemma sortNames_perm (h:names.Perm names') : sortNames names=sortNames names' :=
 insertionSort_eq_of_perm h fun _ _ _ _=>String.le_antisymm

lemma annotatedDatasetNames_same (h:SameRegistry registry registry') :
 Agree Eq (annotatedDatasetNames registry) (annotatedDatasetNames registry') := by
 have hk:(∀m∈allMessages registry.files,KnownOptions m) ↔
   ∀m∈allMessages registry'.files,KnownOptions m:=
  h.allMessages.forall_iff fun m m' hm=>by rw [KnownOptions,KnownOptions,hm.dataset]
 have hn:sortNames ((allMessages registry.files).flatMap annotatedName) =
   sortNames ((allMessages registry'.files).flatMap annotatedName):=by
  have hs:ReorderedBy Eq ((allMessages registry.files).flatMap annotatedName)
    ((allMessages registry'.files).flatMap annotatedName):=by
   refine h.allMessages.flatMap fun m m' _ hm=>?_
   have hnm:annotatedName m=annotatedName m':=by
    rw [annotatedName,annotatedName,hm.dataset,hm.descriptor]
   exact reorderedBy_eq_iff.2 (hnm ▸ .refl _)
  exact sortNames_perm (reorderedBy_eq_iff.1 hs)
 rw [agree_iff]
 intro names
 rw [annotatedDatasetNames_ok,annotatedDatasetNames_ok,hk,hn]

/-! ### The selection -/

/-- A message name without a leading dot or space. -/
def Bare (name:String) : Prop :=
 ∀c,name.toList.head?=some c → c ≠ '.' ∧ isSpace c=false

instance (name:String) : Decidable (Bare name) := by
 unfold Bare
 cases name.toList.head? with
 | none=>exact .isTrue (by simp)
 | some c=>exact decidable_of_iff (c ≠ '.' ∧ isSpace c=false) (by simp)

def SameName (name name':String) : Prop :=
 name=name' ∨ (Bare name ∧ name' = "."++name) ∨ (Bare name' ∧ name = "."++name')

/-- The same names in any order, any number of times, with or without a dot before them. -/
def SameSelection (names names':List String) : Prop :=
 (∀name∈names,∃name'∈names',SameName name name') ∧
  ∀name'∈names',∃name∈names,SameName name name'

lemma trimSpace_bare (h:Bare name) : trimSpace name =
 String.ofList (name.toList.reverse.dropWhile isSpace).reverse := by
 have hc:name.toList.dropWhile isSpace=name.toList:=by
  cases hn : name.toList with
  | nil=>rfl
  | cons c cs=>rw [dropWhile_cons_of_neg (by simp [(h c (by rw [hn];rfl)).2])]
 rw [trimSpace,hc]

lemma trimSpace_dot (h:Bare name) : trimSpace ("."++name) = "."++trimSpace name := by
 have hd:("."++name).toList.dropWhile isSpace = '.' :: name.toList:=by
  rw [String.toList_append]
  exact dropWhile_cons_of_neg (by decide)
 have hr:(name.toList.reverse++['.']).dropWhile isSpace =
   name.toList.reverse.dropWhile isSpace++['.']:=by
  rw [dropWhile_append]
  split_ifs with hem
  · rw [List.isEmpty_iff.1 hem]
    rfl
  · rfl
 rw [trimSpace_bare h,trimSpace,hd,reverse_cons,hr,reverse_append,←String.toList_inj,
  String.toList_append]
 simp

lemma startsWith_bare (h:Bare name) : startsWith "." (trimSpace name)=false := by
 rw [trimSpace_bare h,startsWith,Bool.eq_false_iff]
 simp only [String.toList_ofList]
 intro hd
 have hp:(name.toList.reverse.dropWhile isSpace).reverse <+: name.toList:=by
  rw [←reverse_suffix,reverse_reverse]
  exact dropWhile_suffix _
 obtain ⟨rest,hr⟩:=(List.isPrefixOf_iff_prefix.1 hd).trans hp
 exact (h '.' (by rw [←hr];rfl)).1 rfl

lemma messageName_dot (h:Bare name) : messageName ("."++name)=messageName name := by
 rw [messageName,messageName,trimSpace_dot h,trimStart_append,trimStart,startsWith_bare h]
 rfl

lemma SameName.messageName {name':String} (h:SameName name name') : messageName name=messageName name' := by
 obtain rfl|⟨hb,rfl⟩|⟨hb,rfl⟩:=h
 · rfl
 · exact (messageName_dot hb).symm
 · exact messageName_dot hb

lemma addName_ok {out:List String} {rawName:String} :
 addName names rawName=.ok out ↔ messageName rawName≠"" ∧
  (if messageName rawName∈names then names else names++[messageName rawName])=out := by
 simp only [addName,bind_ok,rejectIf_ok,exists_const,pure_ok]

/-- The loop keeps the names apart and finds those of all raw names. -/
theorem addNames_eq_ok {out:List String} (hnd:names.Nodup) (h:loop addName names rawNames=.ok out) :
 out.Nodup ∧ ∀name,name∈out ↔ name∈names ∨ name∈rawNames.map messageName := by
 induction rawNames generalizing names with
 | nil=>
  obtain rfl : names=out:=by simpa using h
  simpa using hnd
 | cons rawName rest ih=>
  obtain ⟨next,hnx,hr⟩:=(loop_cons _ _ _ _ _).1 h
  obtain ⟨-,rfl⟩:=addName_ok.1 hnx
  clear hnx
  split_ifs at hr with hm
  · obtain ⟨ho,hf⟩:=ih hnd hr
    refine ⟨ho,fun name=>?_⟩
    rw [hf,map_cons,mem_cons]
    constructor
    · rintro (hn|hn)
      · exact .inl hn
      · exact .inr (.inr hn)
    · rintro (hn|rfl|hn)
      · exact .inl hn
      · exact .inl hm
      · exact .inr hn
  · have hnx:(names++[messageName rawName]).Nodup:=by
     rw [←concat_eq_append]
     exact hnd.concat hm
    obtain ⟨ho,hf⟩:=ih hnx hr
    refine ⟨ho,fun name=>?_⟩
    rw [hf,map_cons,mem_cons,mem_append,mem_singleton,or_assoc]

lemma addNames_succeeds : (∃out,loop addName names rawNames=.ok out) ↔ "" ∉ rawNames.map messageName := by
 induction rawNames generalizing names with
 | nil=>simp
 | cons raw rest ih=>
  simp only [loop_cons,addName_ok,map_cons,mem_cons,not_or]
  constructor
  · rintro ⟨out,next,⟨hrw,-⟩,hr⟩
    exact ⟨Ne.symm hrw,ih.1 ⟨out,hr⟩⟩
  · rintro ⟨hrw,hr⟩
    obtain ⟨out,ho⟩:=(@ih _).2 hr
    exact ⟨out,_,⟨Ne.symm hrw,rfl⟩,ho⟩

lemma addNames_same {rawNames':List String}
 (h:∀name,name∈rawNames.map messageName ↔ name∈rawNames'.map messageName) :
 Agree Perm (loop addName [] rawNames) (loop addName [] rawNames') := by
 have hs:(∃out,loop addName [] rawNames=.ok out) ↔
   ∃out,loop addName [] rawNames'=.ok out:=by
  rw [addNames_succeeds,addNames_succeeds,h]
 cases ho : loop addName [] rawNames with
 | ok out=>
  obtain ⟨out',ho'⟩:=hs.1 ⟨out,ho⟩
  rw [ho']
  obtain ⟨hn,hm⟩:=addNames_eq_ok nodup_nil ho
  obtain ⟨hn',hm'⟩:=addNames_eq_ok nodup_nil ho'
  refine (perm_ext_iff_of_nodup hn hn').2 fun name=>?_
  rw [hm,hm',h]
 | error e=>
  cases ho' : loop addName [] rawNames' with
  | ok out' =>
   obtain ⟨out,hc⟩:=hs.2 ⟨out',ho'⟩
   simp [ho] at hc
  | error e' => trivial

lemma SameSelection.messageNames (h:SameSelection names names') (name:String) :
 name∈names.map messageName ↔ name∈names'.map messageName := by
 rw [mem_map,mem_map]
 constructor
 · rintro ⟨raw,hr,rfl⟩
   obtain ⟨raw',hr',hs⟩:=h.1 raw hr
   exact ⟨raw',hr',hs.messageName.symm⟩
 · rintro ⟨raw',hr',rfl⟩
   obtain ⟨raw,hr,hs⟩:=h.2 raw' hr'
   exact ⟨raw,hr,hs.messageName⟩

lemma SameSelection.eq_nil (h:SameSelection names names') : names=[] ↔ names'=[] := by
 rw [eq_nil_iff_forall_not_mem,eq_nil_iff_forall_not_mem]
 constructor
 · intro hnil raw' hr'
   obtain ⟨raw,hr,-⟩:=h.2 raw' hr'
   exact hnil raw hr
 · intro hnil raw hr
   obtain ⟨raw',hr',-⟩:=h.1 raw hr
   exact hnil raw' hr'

section
variable (h:SameRegistry registry registry')
include h
section
variable (hn:SameSelection names names')
include hn
lemma selectedNames_same :
 Agree (fun found found' => ∀name,
   name∈found.map messageName ↔ name∈found'.map messageName)
  (selectedNames registry names) (selectedNames registry' names') := by
 rw [selectedNames,selectedNames]
 by_cases hnil : names=[]
 · rw [if_pos hnil,if_pos (hn.eq_nil.1 hnil)]
   refine (annotatedDatasetNames_same h).wrap.mono ?_
   rintro found _ rfl name
   rfl
 · rw [if_neg hnil,if_neg fun hn' => hnil (hn.eq_nil.2 hn')]
   exact hn.messageNames

lemma selectRoots_same :
 Agree Eq (selectRoots registry names) (selectRoots registry' names') := by
 refine (selectedNames_same h hn).bind fun found found' hf=>?_
 refine (addNames_same hf).bind fun out out' hp=>?_
 refine (agree_rejectIf ?_).bind fun _ _ _=>sortNames_perm hp
 rw [←length_eq_zero_iff,←length_eq_zero_iff,hp.length_eq]

/-! ### Bundles -/

lemma compileDatasets_same
 (previous:Option Decoded) :
 Agree Eq (compileDatasets registry names previous) (compileDatasets registry' names' previous) := by
 refine (selectRoots_same h hn).bind ?_
 rintro roots _ rfl
 refine (@agree_refl _ _ (indexPreviousBundle previous)).wrap.bind ?_
 rintro previousByMessage _ rfl
 refine agree_refl.bind fun _ _ _=>?_
 have hd:Agree Eq (loop (addDataset registry previousByMessage) (∅,[]) roots)
   (loop (addDataset registry' previousByMessage) (∅,[]) roots):=by
  refine Agree.loop ?_ rfl roots
  rintro s _ name rfl
  exact addDataset_same h previousByMessage s name
 refine hd.bind ?_
 rintro ⟨owners,datasets⟩ _ rfl
 rfl
end
end

lemma rejectRemovedRoots_ok : rejectRemovedRoots previousByMessage names=.ok () ↔
  ∀name∈previousByMessage,name∈names := by
 rw [rejectRemovedRoots,rejectIf_ok,not_not,eq_nil_iff_forall_not_mem]
 refine forall_congr' fun name=>?_
 rw [sortNames,mem_insertionSort,mem_filter,←AList.mem_keys]
 simp

lemma addDatasets_ok {s t:BundleState} (h:loop (addDataset registry previousByMessage) s names=.ok t) :
 ∃datasets,Forall₂ (fun name dataset=>
   compileDataset registry previousByMessage name=.ok dataset) names datasets ∧
  t.2=s.2++datasets := by
 induction names generalizing s with
 | nil=>
  obtain rfl : s=t:=by simpa using h
  exact ⟨[],.nil,by simp⟩
 | cons name rest ih=>
  obtain ⟨u,hu,hr⟩:=(loop_cons _ _ _ _ _).1 h
  simp only [addDataset,bind_ok,rejectIf_ok,exists_const,pure_ok] at hu
  obtain ⟨dataset,hdataset,-,rfl⟩:=hu
  obtain ⟨datasets,hd,ht⟩:=ih hr
  exact ⟨dataset::datasets,.cons hdataset hd,by simp [ht]⟩

lemma compileDatasets_ok (h:compileDatasets registry names previous=.ok datasets) :
 ∃roots previousByMessage,selectRoots registry names=.ok roots ∧
  indexPreviousBundle previous=.ok previousByMessage ∧
  (∀name∈previousByMessage,name∈roots) ∧
  Forall₂ (fun name dataset=>compileDataset registry previousByMessage name=.ok dataset)
   roots datasets := by
 simp only [compileDatasets,bind_ok,wrap_ok,exists_unit_ok,Prod.exists,pure_ok] at h
 obtain ⟨roots,hrt,previousByMessage,hp,hr,owners,_,hl,rfl⟩:=h
 refine ⟨roots,previousByMessage,hrt,hp,rejectRemovedRoots_ok.1 hr,?_⟩
 obtain ⟨datasets,hd,heq⟩:=addDatasets_ok hl
 simp only [nil_append] at heq
 rwa [heq]

lemma compileDataset_sourceMessage {dataset:DatasetSchema}
 (h:compileDataset registry previousByMessage name=.ok dataset) : dataset.sourceMessage=name := by
 simp only [compileDataset,bind_ok,wrap_ok,exists_unit_ok] at h
 obtain ⟨md,hmd,-,hdataset⟩:=h
 obtain ⟨c,v,C⟩:=compileMessage_ok.1 hdataset
 rw [C.sourceMessage]
 rw [Registry.findMessage] at hmd
 split at hmd
 · next found hf=>
   obtain rfl:=Except.ok.inj hmd
   simpa using List.find?_some hf
 · split_ifs at hmd

lemma selectRoots_explicit {roots:List String} (hn:names≠[])
 (h:selectRoots registry names=.ok roots) (name:String) : name∈roots ↔ name∈names.map messageName := by
 simp only [selectRoots,selectedNames,if_neg hn,bind_ok,Except.ok.injEq,exists_eq_left',
  exists_unit_ok,pure_ok] at h
 obtain ⟨out,ho,-,rfl⟩:=h
 rw [sortNames,mem_insertionSort,(addNames_eq_ok nodup_nil ho).2]
 simp

lemma indexDatasets_mem {indexed:GoMap String DatasetSchema}
 (h:loop indexDataset indexed datasets=.ok out) :
 (∀name∈indexed,name∈out) ∧ ∀d∈datasets,d.sourceMessage∈out := by
 induction datasets generalizing indexed with
 | nil=>
  obtain rfl : indexed=out:=by simpa using h
  simp
 | cons dataset rest ih=>
  obtain ⟨next,hn,hr⟩:=(loop_cons _ _ _ _ _).1 h
  simp only [indexDataset,bind_ok,rejectIf_ok,exists_const,pure_ok] at hn
  obtain ⟨-,-,rfl⟩:=hn
  obtain ⟨hb,ha⟩:=ih hr
  refine ⟨fun name hnm=>hb name ?_,List.forall_mem_cons.2 ⟨hb _ ?_,ha⟩⟩
  · exact (AList.mem_insert _).2 (.inr hnm)
  · exact (AList.mem_insert _).2 (.inl rfl)

lemma indexPreviousBundle_mem {previous:Decoded} (h:indexPreviousBundle (some previous)=.ok out) :
 ∀d∈previous.bundle.datasets,d.sourceMessage∈out := by
 simp only [indexPreviousBundle,bind_ok,wrap_ok] at h
 obtain ⟨decoded,hd,hi⟩:=h
 have hk:decoded.bundle.datasets=previous.bundle.datasets:=by
  simp only [Go.migrateSchemaBundle] at hd
  split_ifs at hd
  · rw [←Except.ok.inj hd]
  · simp only [bind_ok,wrap_ok,exists_unit_ok,pure_ok] at hd
    obtain ⟨-,-,rfl⟩:=hd
    rfl
 rw [←hk]
 exact (indexDatasets_mem hi).2

section
variable {δ φ:Type} (libraries:Libraries δ φ)
def withoutDigest (bundle:SchemaBundle) : SchemaBundle :=
 { bundle with sourceDescriptorSha256:=[] }

lemma compileDescriptorBytes_same {descriptor':List UInt8} {image image':Image δ φ}
 (hd:libraries.unmarshal descriptor=.ok image)
 (hd':libraries.unmarshal descriptor'=.ok image') (hi:ReorderedImage image image')
 (hl:Agree SameRegistry (libraries.newFiles image) (libraries.newFiles image'))
 {names':List String} (hn:SameSelection names names') (previous:Option Decoded) :
 Agree (fun bundle bundle' => withoutDigest bundle=withoutDigest bundle')
  (compileDescriptorBytes libraries descriptor names previous)
  (compileDescriptorBytes libraries descriptor' names' previous) := by
 have hln:Agree SameRegistry (link libraries descriptor) (link libraries descriptor'):=by
  rw [link,link,hd,hd']
  exact (validateAnnotationOptionNumbers_same hi).wrap.bind fun _ _ _=>hl.wrap
 refine hln.bind fun registry registry' h=>?_
 refine (compileDatasets_same h hn previous).bind ?_
 rintro datasets _ rfl
 rfl

lemma compileDescriptorBytes_ok {bundle:SchemaBundle}
 (h:compileDescriptorBytes libraries descriptor names previous=.ok bundle) :
 ∃registry,link libraries descriptor=.ok registry ∧
  compileDatasets registry names previous=.ok bundle.datasets := by
 simp only [compileDescriptorBytes,bind_ok,pure_ok] at h
 obtain ⟨registry,hr,datasets,hd,rfl⟩:=h
 exact ⟨registry,hr,hd⟩

/-- The result of a compilation depends neither on the order of declarations nor on how the roots
  are listed; other roots do not change a dataset; and no root of the previous bundle can be
  left out. -/
theorem bundle_independent_of_order : (∀descriptor descriptor' image image' names names' previous,
   libraries.unmarshal descriptor=.ok image → libraries.unmarshal descriptor'=.ok image' →
   ReorderedImage image image' →
   Agree SameRegistry (libraries.newFiles image) (libraries.newFiles image') →
   SameSelection names names' →
   Agree (fun bundle bundle' => withoutDigest bundle=withoutDigest bundle')
    (compileDescriptorBytes libraries descriptor names previous)
    (compileDescriptorBytes libraries descriptor' names' previous)) ∧
  (∀descriptor names names' previous bundle bundle',
   compileDescriptorBytes libraries descriptor names previous=.ok bundle →
   compileDescriptorBytes libraries descriptor names' previous=.ok bundle' →
   (names≠[] → names ⊆ names' → bundle.datasets ⊆ bundle'.datasets) ∧
    ∀d∈bundle.datasets,∀d'∈bundle'.datasets,d.sourceMessage=d'.sourceMessage → d=d') ∧
  ∀descriptor names previous registry roots,link libraries descriptor=.ok registry →
   selectRoots registry names=.ok roots →
   (∃d∈previous.bundle.datasets,d.sourceMessage∉roots) →
   ∃err,compileDescriptorBytes libraries descriptor names (some previous)=.error err := by
 refine ⟨?_,?_,?_⟩
 · intro descriptor descriptor' image image' names names' previous hdc hdc' him hl
    hnames
   exact compileDescriptorBytes_same libraries hdc hdc' him hl hnames previous
 · intro descriptor names names' previous bundle bundle' h h'
   obtain ⟨registry,hr,hdt⟩:=compileDescriptorBytes_ok libraries h
   obtain ⟨registry',hr',hdt'⟩:=compileDescriptorBytes_ok libraries h'
   obtain rfl:=Except.ok.inj (hr.symm.trans hr')
   obtain ⟨roots,indexed,hrt,hi,-,hc⟩:=compileDatasets_ok hdt
   obtain ⟨roots',indexed',hrt',hi',-,hc'⟩:=compileDatasets_ok hdt'
   obtain rfl:=Except.ok.inj (hi.symm.trans hi')
   have heq:∀d∈bundle.datasets,∀d'∈bundle'.datasets,
     d.sourceMessage=d'.sourceMessage → d=d' := by
    intro d hd d' hd' hs
    obtain ⟨name,-,hn⟩:=forall₂_mem_right hc hd
    obtain ⟨name',-,hn'⟩:=forall₂_mem_right hc' hd'
    rw [compileDataset_sourceMessage hn,compileDataset_sourceMessage hn'] at hs
    rw [hs] at hn
    exact Except.ok.inj (hn.symm.trans hn')
   refine ⟨fun hne hsb d hd=>?_,heq⟩
   obtain ⟨name,hro,hn⟩:=forall₂_mem_right hc hd
   obtain ⟨raw,hrw,rfl⟩:=List.mem_map.1 ((selectRoots_explicit hne hrt name).1 hro)
   have he':names'≠[]:=ne_nil_of_mem (hsb hrw)
   obtain ⟨d',hd',hn'⟩:=forall₂_mem_left hc'
    ((selectRoots_explicit he' hrt' _).2 (mem_map_of_mem (hsb hrw)))
   obtain rfl:=Except.ok.inj (hn.symm.trans hn')
   exact hd'
 · rintro descriptor names previous registry roots hr hrt ⟨d,hd,hm⟩
   cases hrn : compileDescriptorBytes libraries descriptor names (some previous) with
   | error err=>exact ⟨err,rfl⟩
   | ok bundle=>
    obtain ⟨registry',hr',hdt⟩:=compileDescriptorBytes_ok libraries hrn
    obtain rfl:=Except.ok.inj (hr.symm.trans hr')
    obtain ⟨roots',indexed,hrt',hi,hk,-⟩:=compileDatasets_ok hdt
    obtain rfl:=Except.ok.inj (hrt.symm.trans hrt')
    exact absurd (hk _ (indexPreviousBundle_mem hi d hd)) hm
end

/-! A shop with orders and items, declared in either order. -/

def idField : FieldDescriptor where
 name := "id"
 number:=1
 kind:=.string
 jsonName := "id"

def totalField : FieldDescriptor where
 name := "total"
 number:=2
 kind:=.int64
 jsonName := "total"

def linked (name:String) (fields:List FieldDescriptor) : Reordering.Tree LinkedMessage :=
 .node { descriptor:={ fullName:=name,fields:=fields } } []

def shop : Registry where
 files:=[[linked "shop.Order" [idField,totalField],linked "shop.Item" [idField]]]
 others:=[]
 distinct := by decide
 numbered := by decide

def reorderedShop : Registry where
 files:=[[linked "shop.Item" [idField],linked "shop.Order" [totalField,idField]]]
 others:=[]
 distinct := by decide
 numbered := by decide

def declared (name:String) (fields:List String) :
  Reordering.Tree (MessageDeclaration Unit String) :=
 .node { name:=name,fields:=fields,extensions:=[],rest:=() } []

def shopImage : Image Unit String :=
 [⟨"shop",[declared "Order" ["id","total"],declared "Item" ["id"]],[],()⟩]

def reorderedImage : Image Unit String :=
 [⟨"shop",[declared "Item" ["id"],declared "Order" ["total","id"]],[],()⟩]

/-- Two descriptors and their images; the first message of an image tells them apart. -/
def shopLibraries : Libraries Unit String where
 unmarshal descriptor:=.ok (if descriptor=[1] then shopImage else reorderedImage)
 newFiles image :=
  .ok (if (image.flatMap fun file=>file.messages.map fun m=>m.value.name).head?=some "Order"
   then shop else reorderedShop)
 sha256:=id

lemma shopImage_reordered : ReorderedImage shopImage reorderedImage := by
 have hd:∀name (fields fields':List String),fields.Perm fields' →
   Tree.Reordered SameDeclaration (declared name fields) (declared name fields'):=by
  intro name fields fields' hf
  exact Tree.reordered_node.2 ⟨⟨rfl,hf,rfl,rfl⟩,.nil⟩
 refine .cons ⟨rfl,⟨_,.cons (hd "Order" _ _ ?_) (.cons (hd "Item" _ _ ?_) .nil),
  .swap _ _ _⟩,rfl,rfl⟩ .nil
 · exact .swap _ _ _
 · exact .refl _

lemma shop_reordered : SameRegistry shop reorderedShop := by
 have hl:∀name (fields fields':List FieldDescriptor),fields.Perm fields' →
   Tree.Reordered SameLinked (linked name fields) (linked name fields'):=by
  intro name fields fields' hf
  exact Tree.reordered_node.2 ⟨⟨rfl,hf,rfl⟩,.nil⟩
 refine ⟨.cons ⟨_,.cons (hl "shop.Order" _ _ ?_) (.cons (hl "shop.Item" _ _ ?_) .nil),
  .swap _ _ _⟩ .nil,fun _=>Iff.rfl⟩
 · exact .swap _ _ _
 · exact .refl _

lemma shop_selection :
 SameSelection ["shop.Item","shop.Order"] [".shop.Order","shop.Item","shop.Item"] := by
 have hb:Bare "shop.Order":=by decide
 simp [SameSelection,SameName,hb]

def itemsBundle : Decoded where
 bundle:=⟨4,3,[],[⟨"shop.Item","shop_item","",[],0,[]⟩]⟩
 unknown:=fun _=>[]

theorem shop_independent_of_order : ∃orders bundle bundle' err,
  compileDescriptorBytes shopLibraries [1] ["shop.Order"] none=.ok orders ∧
  compileDescriptorBytes shopLibraries [1] ["shop.Item","shop.Order"] none=.ok bundle ∧
  compileDescriptorBytes shopLibraries [2] [".shop.Order","shop.Item","shop.Item"] none =
   .ok bundle' ∧
  compileDescriptorBytes shopLibraries [1] ["shop.Order"] (some itemsBundle)=.error err ∧
  withoutDigest bundle=withoutDigest bundle' ∧ orders.datasets ⊆ bundle.datasets := by
 obtain ⟨hr,ha,hrm⟩:=bundle_independent_of_order shopLibraries
 obtain ⟨orders,ho⟩:=(succeeds_iff
  (compileDescriptorBytes shopLibraries [1] ["shop.Order"] none)).1 (by decide)
 obtain ⟨bundle,hb⟩:=(succeeds_iff
  (compileDescriptorBytes shopLibraries [1] ["shop.Item","shop.Order"] none)).1
  (by decide)
 obtain ⟨bundle',hb'⟩:=(succeeds_iff (compileDescriptorBytes shopLibraries [2]
  [".shop.Order","shop.Item","shop.Item"] none)).1 (by decide)
 obtain ⟨err,her⟩:=hrm [1] ["shop.Order"] itemsBundle shop ["shop.Order"] rfl rfl
  ⟨_,mem_singleton_self _,by decide⟩
 have hs:=hr [1] [2] shopImage reorderedImage ["shop.Item","shop.Order"]
  [".shop.Order","shop.Item","shop.Item"] none rfl rfl shopImage_reordered shop_reordered
  shop_selection
 rw [hb,hb'] at hs
 refine ⟨orders,bundle,bundle',err,ho,hb,hb',her,hs,?_⟩
 exact (ha _ _ _ _ _ _ ho hb).1 (by simp) (by simp)
end InvariantProtocol.BundleOrder
