import InvariantProtocol.RequestSelectors
/-! The leaves of a JSON value with the paths they lie at, and what a lookup, a deletion and the query
encoder do to them. -/
namespace InvariantProtocol.JsonLeaves
open List GoResult PercentEncoding HttpClient RequestSelectors

variable {v:Json}
inductive Step where
 | name (n:Bytes)
 | item (i:Nat)
 deriving DecidableEq

structure Leaf where
 path : List Step
 value : Json

def Leaf.within (step:Step) (leaf:Leaf) : Leaf:={ leaf with path:=step::leaf.path }

mutual

def leaves : Json → List Leaf
 | .null=>[]
 | .bool b=>[⟨[],.bool b⟩]
 | .number digits=>[⟨[],.number digits⟩]
 | .string s=>[⟨[],.string s⟩]
 | .array items=>itemLeaves 0 items
 | .object names members=>memberLeaves names members

def itemLeaves (i:Nat) : List Json → List Leaf
 | []=>[]
 | v::items=>(leaves v).map (Leaf.within (.item i))++itemLeaves (i+1) items

def memberLeaves : List Bytes → List Json → List Leaf
 | name::names,v::members=>(leaves v).map (Leaf.within (.name name))++memberLeaves names members
 | _,_=>[]
end

mutual

/-- Every object has distinct names, as a decoded map does. -/
def WellFormed : Json → Prop
 | .object names members=>names.Nodup ∧ AllWellFormed members
 | .array items=>AllWellFormed items
 | .null | .bool _ | .number _ | .string _=>True

def AllWellFormed : List Json → Prop
 | []=>True
 | v::items=>WellFormed v ∧ AllWellFormed items
end

/-- The leaf as seen from the value at a path of names, if it lies below it. -/
def strip : List Bytes → Leaf → Option Leaf
 | [],leaf=>some leaf
 | name::names,⟨.name n::path,v⟩=>if n=name then strip names ⟨path,v⟩ else none
 | _,_=>none

def below (names:List Bytes) (ls:List Leaf) : List Leaf:=ls.filterMap (strip names)

def beside (names:List Bytes) (ls:List Leaf) : List Leaf:=ls.filter fun leaf=>(strip names leaf).isNone

lemma strip_within_name (name:Bytes) (names:List Bytes) (n:Bytes) (leaf:Leaf) :
 strip (name::names) (leaf.within (.name n))=if n=name then strip names leaf else none := rfl

lemma below_nil (ls:List Leaf) : below [] ls=ls := by
 induction ls with
 | nil=>rfl
 | cons leaf ls ih=>simp_all [below,strip]

lemma below_append (names:List Bytes) (xs ys:List Leaf) :
 below names (xs++ys)=below names xs++below names ys := filterMap_append

lemma beside_append (names:List Bytes) (xs ys:List Leaf) :
 beside names (xs++ys)=beside names xs++beside names ys := filter_append _ _

lemma below_within (name:Bytes) (names:List Bytes) (n:Bytes) (ls:List Leaf) :
 below (name::names) (ls.map (Leaf.within (.name n)))=if n=name then below names ls else [] := by
 split_ifs with hn
 · simp [below,filterMap_map,Function.comp_def,strip_within_name,hn]
 · simp [below,filterMap_map,Function.comp_def,strip_within_name,hn]

lemma beside_within (name:Bytes) (names:List Bytes) (n:Bytes) (ls:List Leaf) :
 beside (name::names) (ls.map (Leaf.within (.name n))) =
  if n=name then (beside names ls).map (Leaf.within (.name n)) else ls.map (Leaf.within (.name n)) := by
 split_ifs with hn
 · simp [beside,filter_map,Function.comp_def,strip_within_name,hn]
 · simp [beside,filter_map,Function.comp_def,strip_within_name,hn]

lemma below_itemLeaves (name:Bytes) (names:List Bytes) (i:Nat) (items:List Json) :
 below (name::names) (itemLeaves i items)=[] ∧
  beside (name::names) (itemLeaves i items)=itemLeaves i items := by
 induction items generalizing i with
 | nil=>exact ⟨rfl,rfl⟩
 | cons v items ih=>
  rw [itemLeaves,below_append,beside_append,(ih (i+1)).1,(ih (i+1)).2]
  simp [below,beside,filterMap_map,filter_map,Function.comp_def,strip,Leaf.within]

lemma below_memberLeaves_of_notMem {name:Bytes} (rest:List Bytes) :
 ∀{names:List Bytes} {members:List Json},name∉names →
  below (name::rest) (memberLeaves names members)=[] ∧
  beside (name::rest) (memberLeaves names members)=memberLeaves names members
 | n::names,v::members,h=>by
  have hn:n≠name:=fun heq=>h (heq ▸ mem_cons_self)
  obtain ⟨hbl,hb⟩:=@below_memberLeaves_of_notMem name rest names members
   (not_mem_of_not_mem_cons h)
  rw [memberLeaves,below_append,beside_append,hbl,hb,below_within,beside_within,if_neg hn,if_neg hn]
  exact ⟨rfl,rfl⟩
 | [],_,_=>by simp [memberLeaves,below,beside]
 | _::_,[],_=>by simp [memberLeaves,below,beside]

lemma below_memberLeaves {name:Bytes} (rest:List Bytes) :
 ∀{names:List Bytes} {members:List Json},names.Nodup →
  below (name::rest) (memberLeaves names members) =
   (((names.zip members).lookup name).map fun v=>below rest (leaves v)).getD []
 | n::names,v::members,h=>by
  rw [nodup_cons] at h
  rw [memberLeaves,below_append,below_within,zip_cons_cons,lookup_cons]
  by_cases hn : n=name
  · have hnn:=(@below_memberLeaves_of_notMem name rest names members (hn ▸ h.1)).1
    simp [hn,hnn]
  · rw [if_neg hn,beq_false_of_ne (Ne.symm hn),below_memberLeaves rest h.2]
    rfl
 | [],_,_=>by simp [memberLeaves,below]
 | _::_,[],_=>by simp [memberLeaves,below]

lemma wellFormed_of_lookup {name:Bytes} {next:Json} :
 ∀{names:List Bytes} {members:List Json},AllWellFormed members →
  (names.zip members).lookup name=some next → WellFormed next
 | n::names,v::members,h,hn=>by
  rw [AllWellFormed] at h
  rw [zip_cons_cons,lookup_cons] at hn
  cases hnm : name == n with
  | true=>
   rw [hnm] at hn
   exact Option.some.inj hn ▸ h.1
  | false=>
   rw [hnm] at hn
   exact wellFormed_of_lookup h.2 hn
 | [],_,_,hn=>by simp at hn
 | _::_,[],_,hn=>by simp at hn

lemma below_leaves (h:WellFormed v) (names:List Bytes) :
 below names (leaves v)=((names.foldlM Json.member v).map leaves).getD [] := by
 induction names generalizing v with
 | nil=>simp [below_nil]
 | cons name names ih=>
  rw [foldlM_cons]
  cases v with
  | object keys members=>
   rw [WellFormed] at h
   rw [leaves,below_memberLeaves names h.1]
   have hm:(Json.object keys members).member name=(keys.zip members).lookup name:=rfl
   rw [hm]
   cases hn : (keys.zip members).lookup name with
   | none=>rfl
   | some next=>exact ih (wellFormed_of_lookup h.2 hn)
  | array items=>
   rw [leaves,(below_itemLeaves name names 0 items).1]
   rfl
  | null=>rfl
  | bool b=>rfl
  | number digits=>rfl
  | string s=>rfl

section

variable {name:Bytes}
lemma memberLeaves_remove :
 ∀{names:List Bytes} {members:List Json},names.Nodup →
  memberLeaves (removeMember name names members).1 (removeMember name names members).2 =
   beside [name] (memberLeaves names members)
 | n::names,v::members,h=>by
  rw [nodup_cons] at h
  rw [memberLeaves,beside_append,beside_within]
  by_cases hn : n=name
  · have hr:=(@below_memberLeaves_of_notMem name [] names members (hn ▸ h.1)).2
    have hem:beside [] (leaves v)=[]:=by simp [beside,strip]
    rw [removeMember,if_pos hn,if_pos hn,hr,hem]
    rfl
  · rw [removeMember,if_neg hn,if_neg hn,memberLeaves,memberLeaves_remove h.2]
 | [],_,_=>by simp [removeMember,memberLeaves,beside]
 | _::_,[],_=>by simp [removeMember,memberLeaves,beside]

variable {f:Json → Json}
lemma memberLeaves_update {rest:List Bytes} :
 ∀{names:List Bytes} {members:List Json},names.Nodup →
  (∀v,(names.zip members).lookup name=some v → leaves (f v)=beside rest (leaves v)) →
  memberLeaves names (updateMember name f names members) =
   beside (name::rest) (memberLeaves names members)
 | n::names,v::members,h,hf=>by
  rw [nodup_cons] at h
  rw [zip_cons_cons] at hf
  rw [memberLeaves,beside_append,beside_within]
  by_cases hn : n=name
  · have hr:=(@below_memberLeaves_of_notMem name rest names members (hn ▸ h.1)).2
    have hv:leaves (f v)=beside rest (leaves v):=hf v (by simp [hn])
    rw [updateMember,if_pos hn,if_pos hn,memberLeaves,hr,hv]
  · have hr:∀w,(names.zip members).lookup name=some w → leaves (f w)=beside rest (leaves w):=by
     intro w hw
     apply hf w
     rw [lookup_cons,beq_false_of_ne (Ne.symm hn)]
     exact hw
    rw [updateMember,if_neg hn,if_neg hn,memberLeaves,memberLeaves_update h.2 hr]
 | [],_,_,_=>by simp [memberLeaves,beside]
 | _::_,[],_,_=>by simp [updateMember,memberLeaves,beside]

variable {v:Json}
lemma deleteParts_of_ne_object (h:∀names members,v≠.object names members) (names:List Bytes) :
 deleteParts names v=v := by
 cases v with
 | object keys members=>exact absurd rfl (h keys members)
 | _=>cases names <;> simp [deleteParts]

lemma leaves_deleteParts (h:WellFormed v) {names:List Bytes} (hne:names≠[]) :
 leaves (deleteParts names v)=beside names (leaves v) := by
 induction names generalizing v with
 | nil=>exact absurd rfl hne
 | cons name names ih=>
  cases v with
  | object keys members=>
   rw [WellFormed] at h
   cases names with
   | nil=>
    rw [deleteParts,leaves,leaves,memberLeaves_remove h.1]
   | cons next rest=>
    rw [deleteParts,leaves,leaves]
    · apply memberLeaves_update h.1
      intro w hw
      exact ih (wellFormed_of_lookup h.2 hw) (by simp)
    · simp
  | array items=>
   rw [deleteParts_of_ne_object (by simp),leaves,(below_itemLeaves name names 0 items).2]
  | null=>rw [deleteParts_of_ne_object (by simp)];rfl
  | bool b=>rw [deleteParts_of_ne_object (by simp)];rfl
  | number digits=>rw [deleteParts_of_ne_object (by simp)];rfl
  | string s=>rw [deleteParts_of_ne_object (by simp)];rfl

lemma allWellFormed_remove :
 ∀{names:List Bytes} {members:List Json},AllWellFormed members →
  AllWellFormed (removeMember name names members).2
 | n::names,v::members,h=>by
  rw [AllWellFormed] at h
  by_cases hn : n=name
  · simpa [removeMember,hn] using h.2
  · simp only [removeMember,hn,if_false,AllWellFormed]
    exact ⟨h.1,allWellFormed_remove h.2⟩
 | [],_,h=>by simpa [removeMember] using h
 | _::_,[],h=>by simpa [removeMember] using h

lemma allWellFormed_update (hf:∀v,WellFormed v → WellFormed (f v)) :
 ∀{names:List Bytes} {members:List Json},AllWellFormed members →
  AllWellFormed (updateMember name f names members)
 | n::names,v::members,h=>by
  rw [AllWellFormed] at h
  by_cases hn : n=name
  · simp only [updateMember,hn,if_true,AllWellFormed]
    exact ⟨hf v h.1,h.2⟩
  · simp only [updateMember,hn,if_false,AllWellFormed]
    exact ⟨h.1,allWellFormed_update hf h.2⟩
 | [],_,h=>by simpa [updateMember] using h
 | _::_,[],h=>by simpa [updateMember] using h

lemma WellFormed.deleteParts (h:WellFormed v) (names:List Bytes) : WellFormed (deleteParts names v) := by
 induction names generalizing v with
 | nil=>simpa [HttpClient.deleteParts] using h
 | cons name names ih=>
  cases v with
  | object keys members=>
   rw [WellFormed] at h
   cases names with
   | nil=>
    rw [HttpClient.deleteParts,WellFormed]
    exact ⟨h.1.sublist removeMember_sublist,allWellFormed_remove h.2⟩
   | cons next rest=>
    rw [HttpClient.deleteParts,WellFormed]
    · exact ⟨h.1,allWellFormed_update (fun v hv=>ih hv) h.2⟩
    · simp
  | _=>simpa [HttpClient.deleteParts] using h
end

def Leaf.names (leaf:Leaf) : List Bytes :=
 leaf.path.filterMap fun
  | .name n=>some n
  | .item _=>none

/-- The key the query encoder has reached at the end of a path of names. -/
def queryKey (start:Bytes) : List Bytes → Bytes
 | []=>start
 | name::names=>queryKey (if start=[] then name else start++dot::name) names

def leafText (v:Json) : Bytes :=
 match scalarToString v with
 | .ok raw=>raw
 | .error _=>[]

def Leaf.queryParam (start:Bytes) (leaf:Leaf) : Bytes×Bytes :=
 (queryKey start leaf.names,leafText leaf.value)

variable {start:Bytes}
lemma queryValue_ok {param:Bytes×Bytes} (h:queryValue start v=.ok param) :
 leaves v=[⟨[],v⟩] ∧ param=(start,leafText v) := by
 cases v with
 | null=>cases h
 | array items=>cases h
 | object names members=>cases h
 | bool b=>exact ⟨rfl,(Except.ok.inj h).symm⟩
 | number digits=>exact ⟨rfl,(Except.ok.inj h).symm⟩
 | string s=>exact ⟨rfl,(Except.ok.inj h).symm⟩

lemma itemQueries_eq {items:List Json} {query:List (Bytes×Bytes)}
 (h:items.mapM (queryValue start)=.ok query) (i:Nat) :
 query=(itemLeaves i items).map (Leaf.queryParam start) := by
 induction items generalizing query i with
 | nil=>
  cases h
  rfl
 | cons v items ih=>
  simp only [mapM_cons,bind_ok,pure_ok] at h
  obtain ⟨param,hp,rest,hr,rfl⟩:=h
  obtain ⟨hl,rfl⟩:=queryValue_ok hp
  rw [itemLeaves,hl,ih hr (i+1)]
  rfl

def encoded (field:Bytes×ClientResult (List (Bytes×Bytes))) : List (Bytes×Bytes) :=
 match field.2 with
 | .ok query=>query
 | .error _=>[]

lemma mapM_encoded {fields:List (Bytes×ClientResult (List (Bytes×Bytes)))}
 {results:List (List (Bytes×Bytes))} (h:(fields.mapM fun field=>field.2)=.ok results) :
 results=fields.map encoded ∧ ∀field∈fields,field.2=.ok (encoded field) := by
 rw [mapM_ok] at h
 induction h with
 | nil=>simp
 | @cons field result fields results hf _ ih=>
  have hen:encoded field=result:=by rw [encoded,hf]
  rw [map_cons,hen,←ih.1]
  refine ⟨rfl,?_⟩
  intro other ho
  rcases mem_cons.mp ho with rfl|ho
  · rw [hen,hf]
  · exact ih.2 other ho

mutual

/-- The encoder writes each leaf once, under the key its path leads to. -/
theorem encodeQueryFields_perm (start:Bytes) : ∀(v:Json) (query:List (Bytes×Bytes)),
 encodeQueryFields start v=.ok query → query.Perm ((leaves v).map (Leaf.queryParam start))
 | .null,query,h=>by
  cases h
  exact .refl _
 | .bool b,query,h=>by
  cases h
  exact .refl _
 | .number digits,query,h=>by
  cases h
  exact .refl _
 | .string s,query,h=>by
  cases h
  exact .refl _
 | .array items,query,h=>by
  rw [encodeQueryFields] at h
  rw [leaves,←itemQueries_eq h 0]
 | .object names members,query,h=>by
  simp only [encodeQueryFields,bind_ok,pure_ok] at h
  obtain ⟨results,hr,rfl⟩:=h
  obtain ⟨rfl,hok⟩:=mapM_encoded hr
  have hs:=perm_insertionSort (fun a b:Bytes×_=>¬b.1<a.1)
   (memberQueries start names members)
  have hm:=memberQueries_perm start names members
   fun field hf=>hok field (hs.mem_iff.mpr hf)
  rw [leaves,←flatMap_def]
  exact (hs.flatMap_right _).trans hm

lemma memberQueries_perm (start:Bytes) : ∀(names:List Bytes) (members:List Json),
 (∀field∈memberQueries start names members,field.2=.ok (encoded field)) →
 ((memberQueries start names members).flatMap encoded).Perm
  ((memberLeaves names members).map (Leaf.queryParam start))
 | name::names,v::members,h=>by
  rw [memberQueries,forall_mem_cons] at h
  have hf:=encodeQueryFields_perm _ v _ h.1
  have hr:=memberQueries_perm start names members h.2
  rw [memberQueries,flatMap_cons,memberLeaves,map_append,map_map]
  exact hf.append hr
 | [],_,_=>by simp [memberQueries,memberLeaves]
 | _::_,[],_=>by simp [memberQueries,memberLeaves]
end

def dottedPath (names:List Bytes) : Bytes:=[dot].intercalate names

lemma dottedPath_cons (name:Bytes) (names:List Bytes) :
 dottedPath (name::names)=name++names.flatMap fun n=>dot::n := by
 induction names generalizing name with
 | nil=>simp [dottedPath]
 | cons next names ih=>
  have hn:=ih next
  rw [dottedPath] at hn ⊢
  rw [intercalate_cons_cons,hn]
  simp

lemma queryKey_of_ne_nil (hs:start≠[]) (names:List Bytes) :
 queryKey start names=start++names.flatMap fun n=>dot::n := by
 induction names generalizing start with
 | nil=>simp [queryKey]
 | cons name names ih=>
  rw [queryKey,if_neg hs,ih (by simp)]
  simp

/-- A path whose key is its dotted path: it is not a longer path from an empty name. -/
def PlainPath (names:List Bytes) : Prop:=names.head?=some [] → names.length=1

instance (names:List Bytes) : Decidable (PlainPath names) :=
 inferInstanceAs (Decidable (names.head?=some [] → names.length=1))

/-- An empty name at the start of a longer path is lost from the key. -/
theorem queryKey_le (names:List Bytes) : (queryKey [] names).length≤(dottedPath names).length ∧
 ((queryKey [] names).length=(dottedPath names).length ↔ PlainPath names) ∧
 (PlainPath names → queryKey [] names=dottedPath names) := by
 induction names with
 | nil=>simp [queryKey,dottedPath,PlainPath]
 | cons name names ih=>
  rw [queryKey,if_pos rfl,dottedPath_cons]
  by_cases hn : name=[]
  · subst hn
    cases names with
    | nil=>simp [queryKey,PlainPath]
    | cons next names=>
     have hl:(dottedPath (next::names)).length+1 =
       ((next::names).flatMap fun n=>dot::n).length:=by
      rw [dottedPath_cons]
      simp
     have hnt:¬PlainPath ([]::next::names):=by simp [PlainPath]
     refine ⟨?_,?_,fun h=>absurd h hnt⟩
     · simp only [nil_append]
       omega
     · simp only [hnt,iff_false,nil_append]
       omega
  · rw [queryKey_of_ne_nil hn]
    simp [PlainPath,hn]
end InvariantProtocol.JsonLeaves
