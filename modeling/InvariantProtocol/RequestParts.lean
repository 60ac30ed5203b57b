import InvariantProtocol.JsonLeaves
namespace InvariantProtocol.RequestPartition
open ListRelations GoResult PercentEncoding HttpClient RequestSelectors JsonLeaves
open List hiding below

variable {names:List Bytes} {part:Bytes} {s:PathSegment}
def consumedFields (template:PathTemplate) : List Bytes :=
 (template.segments.filter fun segment=>segment.field≠[]).map fun segment=>segment.field

def endpointPath (template:PathTemplate) (parts:List Bytes) : Bytes :=
 if template.segments=[] then [slash]
 else if template.trailingSlash then slash::[slash].intercalate parts++[slash]
 else slash::[slash].intercalate parts

def sentBody (b:HttpClientBinding) (args:Json) : Option Json :=
 if b.body=[] then none
 else if b.body=text "*" then
  match args with
  | .object [] _=>if b.connect then some args else none
  | _=>some args
 else getNestedField args b.body

/-- What `build` sends: the parts of the path, the value in the body, and the query parameters. -/
structure Sent where
 parts : List Bytes
 body : Option Json
 query : List (Bytes×Bytes)

def workingArgs (b:HttpClientBinding) (args:Json) : Json :=
 (consumedFields b.template).foldl deleteNestedField args

def remainingArgs (b:HttpClientBinding) (args:Json) : Json :=
 if b.body≠[] ∧ b.body≠text "*" then deleteNestedField (workingArgs b args) b.body
 else workingArgs b args

def sentParts (b:HttpClientBinding) (args:Json) : ClientResult Sent:=do
 let parts ← b.template.segments.mapM (expandSegment args)
 let query ← encodeQuery b (remainingArgs b args)
 return { parts,body:=sentBody b (workingArgs b args),query }

lemma encodeBody_eq (marshal:Json → Bytes) (b:HttpClientBinding) (args:Json) :
 encodeBody marshal b args=((sentBody b args).map marshal,b.body) := by
 unfold encodeBody sentBody
 by_cases hem : b.body=[]
 · simp [hem]
 · by_cases hs : b.body=text "*"
   · rw [if_neg hem,if_neg hem,if_pos hs,if_pos hs]
     cases args with
     | object names members=>
      cases names with
      | nil=>cases b.connect <;> rfl
      | cons name names=>rfl
     | _=>rfl
   · simp only [hem,hs,if_false]

lemma build_eq (marshal:Json → Bytes) (b:HttpClientBinding) (args:Json) (base:BaseURL) :
 build marshal b args base=(sentParts b args).map fun sent=> (sent.body.map marshal,
   urlString base (joinBasePath base (endpointPath b.template sent.parts)) (encodeValues sent.query)) := by
 have hex:expandPath b.template args=(b.template.segments.mapM (expandSegment args)).map fun parts=>
   (endpointPath b.template parts,consumedFields b.template):=by
  unfold expandPath endpointPath consumedFields
  split_ifs with hs
  · rw [hs]
    rfl
  · cases b.template.segments.mapM (expandSegment args) <;> rfl
  · cases b.template.segments.mapM (expandSegment args) <;> rfl
 unfold build sentParts
 rw [hex]
 cases b.template.segments.mapM (expandSegment args) with
 | error e=>rfl
 | ok parts=>
  simp only [Except.map,bind,Except.bind,encodeBody_eq]
  unfold remainingArgs workingArgs
  generalize encodeQuery b _=query
  cases query <;> rfl

section
variable {M:Type} (T:RequestTypes M)
def selectorNames (m:M) (field:Bytes) : List Bytes :=
 translated T FieldType.descriptor (some m) (field.splitOn dot)

variable {T} {fullName:M → Bytes} {m:M} {before parts:List Bytes}
lemma jsonParts_cons {rest:List Bytes} (h:jsonParts (goField T) fullName m before (part::rest)=.ok names) :
 ∃f,T.field m part=some f ∧
  (rest=[] ∧ names=[f.jsonName] ∨
   rest≠[] ∧ ∃inner names',f.type.descriptor=some inner ∧
    jsonParts (goField T) fullName inner (before++[part]) rest=.ok names' ∧
    names=f.jsonName::names') := by
 rw [jsonParts,goField] at h
 cases hf : T.field m part with
 | none=>simp [hf] at h
 | some f=>
  refine ⟨f,rfl,?_⟩
  simp only [hf,Option.map_some] at h
  split_ifs at h with hr
  · exact .inl ⟨hr,(Except.ok.inj h).symm⟩
  · cases hi : f.type.descriptor with
    | none=>simp [hi] at h
    | some inner=>
     simp only [hi,bind_ok,pure_ok] at h
     obtain ⟨names',hn,rfl⟩:=h
     exact .inr ⟨hr,inner,names',rfl,hn,rfl⟩

lemma jsonParts_ok (h:jsonParts (goField T) fullName m before parts=.ok names) :
 names=translated T FieldType.descriptor (some m) parts := by
 induction parts generalizing m before names with
 | nil=>exact (Except.ok.inj h).symm
 | cons part rest ih=>
  obtain ⟨f,hf,⟨rfl,rfl⟩|⟨-,inner,names',hi,hn,rfl⟩⟩:=jsonParts_cons h
  · simp [translated,hf]
  · rw [ih hn,translated,hf,←hi]

lemma jsonParts_length
 (h:jsonParts (goField T) fullName m before parts=.ok names) : names.length=parts.length := by
 induction parts generalizing m before names with
 | nil=>rw [←Except.ok.inj h]
 | cons part rest ih=>
  obtain ⟨f,-,⟨rfl,rfl⟩|⟨-,inner,names',-,hn,rfl⟩⟩:=jsonParts_cons h
  · rfl
  · rw [length_cons,length_cons,ih hn]

lemma jsonParts_dotFree (hd:∀m part f,T.field m part=some f → dot∉f.jsonName)
 (h:jsonParts (goField T) fullName m before parts=.ok names) : ∀name∈names,dot∉name := by
 induction parts generalizing m before names with
 | nil=>
  rw [←Except.ok.inj h]
  simp
 | cons part rest ih=>
  obtain ⟨f,hf,⟨-,rfl⟩|⟨-,inner,names',-,hn,rfl⟩⟩:=jsonParts_cons h
  · simpa using hd m part f hf
  · rw [forall_mem_cons]
    exact ⟨hd m part f hf,ih hn⟩

lemma jsonParts_inj {parts' before':List Bytes} (h:jsonParts (goField T) fullName m before parts=.ok names)
 (h':jsonParts (goField T) fullName m before' parts'=.ok names) : parts=parts' := by
 induction parts generalizing m before before' names parts' with
 | nil=>
  have hln:=(jsonParts_length h').symm.trans (jsonParts_length h)
  exact (List.length_eq_zero_iff.mp hln).symm
 | cons part rest ih=>
  cases parts' with
  | nil=>
   have hln:=(jsonParts_length h).symm.trans (jsonParts_length h')
   cases hln
  | cons part' rest' =>
   have hl:=(jsonParts_length h).symm.trans (jsonParts_length h')
   obtain ⟨f,hfl,hc⟩:=jsonParts_cons h
   obtain ⟨f',hf',hc'⟩:=jsonParts_cons h'
   have hnm:f.jsonName=f'.jsonName:=by
    rcases hc with ⟨-,rfl⟩|⟨-,_,_,-,-,rfl⟩ <;>
     rcases hc' with ⟨-,heq⟩|⟨-,_,_,-,-,heq⟩ <;> exact (List.cons.inj heq).1
   have hp:part=part':=T.jsonName_unique m part part' f f' hfl hf' hnm
   subst hp
   have hf:f=f':=Option.some.inj (hfl.symm.trans hf')
   subst hf
   rcases hc with ⟨rfl,-⟩|⟨hr,inner,names₁,hi,hn,rfl⟩
   · rw [length_cons,length_cons] at hl
     have hr':rest'=[]:=List.length_eq_zero_iff.mp (by simpa using hl.symm)
     rw [hr']
   · rcases hc' with ⟨rfl,-⟩|⟨-,inner',names₂,hi',hn',heq⟩
     · rw [length_cons,length_cons] at hl
       exact absurd (List.length_eq_zero_iff.mp (by simpa using hl)) hr
     · have hs:inner=inner':=Option.some.inj (hi.symm.trans hi')
       subst hs
       rw [←(List.cons.inj heq).2] at hn'
       rw [ih hn hn']

lemma selector_ok (hd:∀m part f,T.field m part=some f → dot∉f.jsonName) {field path:Bytes}
 (h:protobufJSONFieldPath (goField T) fullName m field=.ok path) :
 path=[dot].intercalate (selectorNames T m field) ∧ selectorNames T m field≠[] ∧
  ∀name∈selectorNames T m field,dot∉name := by
 rw [protobufJSONFieldPath] at h
 simp only [bind_ok,pure_ok] at h
 obtain ⟨names,hn,rfl⟩:=h
 have heq:names=selectorNames T m field:=jsonParts_ok hn
 rw [←heq]
 refine ⟨rfl,?_,jsonParts_dotFree hd hn⟩
 rintro rfl
 have hl:=jsonParts_length hn
 exact splitOn_ne_nil _ _ (List.length_eq_zero_iff.mp hl.symm)

lemma selectorNames_inj {field field' path path':Bytes}
 (h:protobufJSONFieldPath (goField T) fullName m field=.ok path)
 (h':protobufJSONFieldPath (goField T) fullName m field'=.ok path')
 (heq:selectorNames T m field=selectorNames T m field') : field=field' := by
 rw [protobufJSONFieldPath] at h h'
 simp only [bind_ok,pure_ok] at h h'
 obtain ⟨names,hn,rfl⟩:=h
 obtain ⟨names',hn',rfl⟩:=h'
 have hs:names=names':=by
  rw [jsonParts_ok hn,jsonParts_ok hn']
  exact heq
 subst hs
 have hp:=jsonParts_inj hn hn'
 calc field=[dot].intercalate (field.splitOn dot):=(intercalate_splitOn dot).symm
  _=[dot].intercalate (field'.splitOn dot):=by rw [hp]
  _=field':=intercalate_splitOn dot
end

section
variable {M:Type} (T:RequestTypes M)
def boundSegment (m:M) (s:PathSegment) : PathSegment :=
 if s.field=[] then s else { s with field:=[dot].intercalate (selectorNames T m s.field) }

def boundBody (m:M) (body:Bytes) : Bytes :=
 if body=[] ∨ body=text "*" then body else [dot].intercalate (selectorNames T m body)

def variableNames (m:M) (t:PathTemplate) : List (List Bytes) :=
 (t.segments.filter fun s=>s.field≠[]).map fun s=>selectorNames T m s.field

variable {T} {fullName:M → Bytes} {m:M} {pattern:Bytes}
section
variable (hd:∀m part f,T.field m part=some f → dot∉f.jsonName)
include hd
lemma bindSegment_ok
 {bound:PathSegment} (h:bindSegment (goField T) fullName m pattern s=.ok bound) : bound=boundSegment T m s ∧
  (s.field≠[] → ∃path,protobufJSONFieldPath (goField T) fullName m s.field=.ok path) := by
 unfold bindSegment at h
 unfold boundSegment
 split_ifs at h ⊢ with hf
 · exact ⟨(Except.ok.inj h).symm,fun hne=>absurd hf hne⟩
 · cases hp : protobufJSONFieldPath (goField T) fullName m s.field with
   | error e=>simp [hp] at h
   | ok path=>
    rw [hp] at h
    rw [←(selector_ok hd hp).1]
    exact ⟨(Except.ok.inj h).symm,fun _=>⟨path,rfl⟩⟩

lemma bindBody_ok {body bound:Bytes}
 (h:bindBody (goField T) fullName m body=.ok bound) : bound=boundBody T m body ∧
  (body≠[] → body≠text "*" →
   ∃path,protobufJSONFieldPath (goField T) fullName m body=.ok path) := by
 unfold bindBody at h
 unfold boundBody
 by_cases hb : body=[] ∨ body=text "*"
 · rw [if_pos hb] at h ⊢
   refine ⟨(Except.ok.inj h).symm,fun hem hs=>?_⟩
   exact absurd hb (not_or.mpr ⟨hem,hs⟩)
 · rw [if_neg hb,mapError_ok] at h
   rw [if_neg hb,←(selector_ok hd h).1]
   exact ⟨rfl,fun _ _=>⟨bound,h⟩⟩

lemma binding_ok {body:Bytes}
 {b:HttpClientBinding} (h:newHTTPClientBinding (goField T) fullName pattern body m=.ok b) :
 ∃t,parsePathTemplate pattern=.ok t ∧
  b.template.segments=t.segments.map (boundSegment T m) ∧
  (∀s∈t.segments,s.field≠[] →
   ∃path,protobufJSONFieldPath (goField T) fullName m s.field=.ok path) ∧
  b.body=boundBody T m body ∧
  (body≠[] → body≠text "*" →
   ∃path,protobufJSONFieldPath (goField T) fullName m body=.ok path) := by
 simp only [newHTTPClientBinding,bind_ok,pure_ok,mapError_ok] at h
 obtain ⟨t,ht,segments,hsg,bound,hb,rfl⟩:=h
 rw [mapM_ok] at hsg
 obtain ⟨hbd,hsl⟩:=bindBody_ok hd hb
 refine ⟨t,ht,?_,?_,hbd,hsl⟩
 · have hm:Forall₂ Eq (t.segments.map (boundSegment T m)) segments:=by
    rw [forall₂_map_left_iff]
    exact hsg.imp fun s bound hs=>(bindSegment_ok hd hs).1.symm
   rw [forall₂_eq_eq_eq] at hm
   exact hm.symm
 · intro s hs
   obtain ⟨bound',-,hb'⟩:=forall₂_mem_left hsg hs
   exact (bindSegment_ok hd hb').2
end
end

/-- The paths that the client sees as variables: all but the single empty name. -/
def seenNames (vars:List (List Bytes)) : List (List Bytes):=vars.filter fun names=>names≠[[]]

lemma consumedFields_eq {M:Type} {T:RequestTypes M} {m:M} {template t:PathTemplate}
 (hsg:template.segments=t.segments.map (boundSegment T m))
 (hn:∀s∈t.segments,s.field≠[] → selectorNames T m s.field≠[]) :
 consumedFields template=(seenNames (variableNames T m t)).map fun names=>[dot].intercalate names := by
 unfold consumedFields seenNames variableNames
 rw [hsg]
 generalize t.segments=segments at hn
 induction segments with
 | nil=>rfl
 | cons s segments ih=>
  have hr:=ih fun s hs=>hn s (mem_cons_of_mem _ hs)
  rw [map_cons]
  by_cases hf : s.field=[]
  · have hb:(boundSegment T m s).field=[]:=by rw [boundSegment,if_pos hf,hf]
    rw [filter_cons_of_neg (by simp [hb]),filter_cons_of_neg (by simp [hf]),hr]
  · have hb:(boundSegment T m s).field=[dot].intercalate (selectorNames T m s.field):=by
     rw [boundSegment,if_neg hf]
    have hem:=intercalate_eq_iff (hn s mem_cons_self hf) (by simp:dot∉([] : Bytes))
    by_cases hsn : selectorNames T m s.field=[[]]
    · have hg:(boundSegment T m s).field=[]:=hb.trans (hem.mpr hsn)
      rw [filter_cons_of_neg (by simp [hg]),filter_cons_of_pos (by simpa using hf),map_cons,
       filter_cons_of_neg (by simp [hsn]),hr]
    · have hfn:(boundSegment T m s).field≠[]:=fun heq=>hsn (hem.mp (hb ▸ heq))
      rw [filter_cons_of_pos (by simpa using hfn),filter_cons_of_pos (by simpa using hf),map_cons,
       map_cons,filter_cons_of_pos (by simpa using hsn),map_cons,hr,hb]

variable {args:Json}
lemma foldl_deleteNestedField {vars:List (List Bytes)} (hne:∀names∈vars,names≠[])
 (hdt:∀names∈vars,∀name∈names,dot∉name) {args:Json} (h:WellFormed args) :
 leaves ((vars.map fun names=>[dot].intercalate names).foldl deleteNestedField args) =
   (leaves args).filter (fun leaf=>vars.all fun names=>(strip names leaf).isNone) ∧
  WellFormed ((vars.map fun names=>[dot].intercalate names).foldl deleteNestedField args) := by
 induction vars generalizing args with
 | nil=>simp [h]
 | cons names vars ih=>
  have hf:=hne names mem_cons_self
  have hd:deleteNestedField args ([dot].intercalate names)=deleteParts names args:=by
   rw [deleteNestedField,splitOn_intercalate dot (hdt names mem_cons_self) hf]
  obtain ⟨hl,hw⟩:=ih (fun names hm=>hne names (mem_cons_of_mem _ hm))
   (fun names hm=>hdt names (mem_cons_of_mem _ hm)) (h.deleteParts names)
  rw [map_cons,foldl_cons,hd,hl,leaves_deleteParts h hf,beside,filter_filter]
  refine ⟨?_,hw⟩
  simp only [all_cons,Bool.and_comm]

def toPath (names:List Bytes) : List Step:=names.map .name

lemma strip_eq_some {leaf found:Leaf} :
 strip names leaf=some found ↔ leaf.path=toPath names++found.path ∧ leaf.value=found.value := by
 induction names generalizing leaf with
 | nil=>
  obtain ⟨path,value⟩:=leaf
  obtain ⟨path',value'⟩:=found
  simp [strip,toPath]
 | cons name names ih=>
  obtain ⟨path,value⟩:=leaf
  cases path with
  | nil=>simp [strip,toPath]
  | cons step path=>
   cases step with
   | item i=>simp [strip,toPath]
   | name n=>
    by_cases hn : n=name
    · simpa [strip,toPath,hn] using @ih ⟨path,value⟩
    · simp [strip,toPath,hn]

/-- Where a variable has a scalar value, the leaf at its path is the only one below it. -/
theorem strip_isNone_iff {v:Json} (h:WellFormed args)
 (hvalue:names.foldlM Json.member args=some v) (hsc:leaves v=[⟨[],v⟩]) {leaf:Leaf}
 (hl:leaf∈leaves args) : (strip names leaf).isNone=true ↔ leaf.path≠toPath names := by
 have hb:=below_leaves h names
 rw [hvalue,Option.map_some,Option.getD_some,hsc] at hb
 cases hs : strip names leaf with
 | none=>
  simp only [Option.isNone_none,true_iff]
  intro hp
  have hsm:strip names leaf=some ⟨[],leaf.value⟩:=strip_eq_some.mpr ⟨by simpa using hp,rfl⟩
  rw [hs] at hsm
  cases hsm
 | some found=>
  have hm:found∈below names (leaves args):=List.mem_filterMap.mpr ⟨leaf,hl,hs⟩
  rw [hb,mem_singleton] at hm
  have hp:=(strip_eq_some.mp hs).1
  rw [hm,append_nil] at hp
  simp [hp]

lemma expandSegment_eq_ok (h:expandSegment args s=.ok part) : s.field=[] ∧ part=s.literal ∨
  s.field≠[] ∧ ∃v,getNestedField args s.field=some v ∧ encodePathValue v s.multi=.ok part := by
 unfold expandSegment at h
 split_ifs at h with hf
 · exact .inl ⟨hf,(Except.ok.inj h).symm⟩
 · cases hvalue : getNestedField args s.field with
   | none=>simp [hvalue] at h
   | some v=>
    rw [hvalue,mapError_ok] at h
    exact .inr ⟨hf,v,rfl,h⟩

lemma leaves_of_encodePathValue {v:Json} {multi:Bool} (h:encodePathValue v multi=.ok part) :
 leaves v=[⟨[],v⟩] := by
 cases v with
 | null=>cases h
 | array items=>cases h
 | object names members=>cases h
 | _=>rfl

def restLeaves (vars:List (List Bytes)) (args:Json) : List Leaf :=
 (leaves args).filter fun leaf=>leaf.path∉vars.map toPath

lemma restLeaves_seen (vars:List (List Bytes)) (args:Json) : restLeaves vars args =
  (restLeaves (seenNames vars) args).filter fun leaf=>leaf.path∉vars.map toPath := by
 unfold restLeaves
 rw [filter_filter]
 apply filter_congr
 intro leaf _
 have hs:leaf.path∈(seenNames vars).map toPath → leaf.path∈vars.map toPath:=by
  intro hm
  obtain ⟨names,hn,hp⟩:=List.mem_map.mp hm
  exact List.mem_map.mpr ⟨names,mem_of_mem_filter hn,hp⟩
 by_cases hm : leaf.path∈vars.map toPath
 · simp [hm]
 · simp [hm,mt hs hm]

lemma restLeaves_sublist (vars:List (List Bytes)) (args:Json) :
 (restLeaves vars args).Sublist (restLeaves (seenNames vars) args) := by
 rw [restLeaves_seen]
 exact filter_sublist

/-- The client overlooks a path variable only where its JSON path is the empty name, and then a leaf
  only if there is one. -/
theorem restLeaves_eq_iff (vars:List (List Bytes)) (args:Json) :
 restLeaves vars args=restLeaves (seenNames vars) args ↔
  ([[]]∈vars → ∀leaf∈leaves args,leaf.path≠toPath [[]]) := by
 rw [restLeaves_seen,filter_eq_self]
 constructor
 · intro h hem leaf hl hp
   have hr:leaf∈restLeaves (seenNames vars) args:=by
    apply List.mem_filter.mpr
    refine ⟨hl,?_⟩
    simp only [decide_eq_true_eq]
    intro hm
    obtain ⟨names,hn,hsm⟩:=List.mem_map.mp hm
    have hnt:names≠[[]]:=by simpa using (List.mem_filter.mp hn).2
    apply hnt
    have hi:Function.Injective toPath:=List.map_injective_iff.mpr fun a b hab=>Step.name.inj hab
    exact hi (hsm.trans hp)
   have hg:=h leaf hr
   simp only [decide_eq_true_eq] at hg
   exact hg (List.mem_map.mpr ⟨[[]],hem,hp.symm⟩)
 · intro h leaf hl
   obtain ⟨hm,hs⟩:=List.mem_filter.mp hl
   simp only [decide_eq_true_eq] at hs ⊢
   intro hv
   obtain ⟨names,hn,hp⟩:=List.mem_map.mp hv
   by_cases hem : names=[[]]
   · subst hem
     exact h hn leaf hm hp.symm
   · exact hs (List.mem_map.mpr ⟨names,List.mem_filter.mpr ⟨hn,by simpa using hem⟩,hp⟩)
end InvariantProtocol.RequestPartition
