import InvariantProtocol.RequestParts
import Mathlib.Algebra.GroupWithZero.Nat
import Mathlib.Algebra.Order.BigOperators.Group.List
import Mathlib.Algebra.Order.Group.Nat
namespace InvariantProtocol.RequestPartition
open ListRelations GoResult PercentEncoding HttpClient RequestSelectors JsonLeaves
open List hiding all below

section

lemma sum_eq_pointwise {α:Type} {f g:α → Nat} {xs:List α} (hle:∀x∈xs,f x≤g x)
 (hs:(xs.map f).sum=(xs.map g).sum) : ∀x∈xs,f x=g x := by
 induction xs with
 | nil=>simp
 | cons x xs ih=>
  rw [forall_mem_cons] at hle ⊢
  simp only [map_cons,sum_cons] at hs
  have hr:(xs.map f).sum≤(xs.map g).sum:=sum_le_sum hle.2
  have hx:=hle.1
  exact ⟨by omega,ih hle.2 (by omega)⟩

def Leaf.param (leaf:Leaf) : Bytes×Bytes:=(dottedPath leaf.names,leafText leaf.value)

/-- The encoder's parameters are the expected ones if no leaf is missing and no key loses a dot. -/
theorem params_perm_iff {xs ys:List Leaf} (hsub:ys.Sublist xs) {query:List (Bytes×Bytes)}
 (hq:query.Perm (xs.map (Leaf.queryParam []))) :
 query.Perm (ys.map Leaf.param) ↔ ys=xs ∧ ∀leaf∈ys,PlainPath leaf.names := by
 constructor
 · intro hp
   have hs:ys=xs:=by
    apply hsub.eq_of_length
    have hl:=hp.length_eq.symm.trans hq.length_eq
    simpa using hl
   subst hs
   refine ⟨rfl,?_⟩
   have hsm:=((hq.symm.trans hp).map fun param=>param.1.length).sum_eq
   rw [map_map,map_map] at hsm
   intro leaf hlf
   have hl:=sum_eq_pointwise (fun leaf _=>(queryKey_le leaf.names).1) hsm leaf hlf
   exact (queryKey_le leaf.names).2.1.mp hl
 · rintro ⟨rfl,hpl⟩
   have hs:ys.map Leaf.param=ys.map (Leaf.queryParam []):=by
    apply map_congr_left
    intro leaf hlf
    rw [Leaf.param,Leaf.queryParam,(queryKey_le leaf.names).2.2 (hpl leaf hlf)]
   rw [hs]
   exact hq

lemma below_length (names:List Bytes) (ls:List Leaf) :
 (below names ls).length+(beside names ls).length=ls.length := by
 unfold below beside
 induction ls with
 | nil=>rfl
 | cons leaf ls ih=>
  cases hs : strip names leaf with
  | none=>simp [hs,←ih];omega
  | some found=>simp [hs,←ih];omega

lemma sum_below_star {ls:List Leaf} (h:beside [text "*"] ls=[]) :
 ((below [text "*"] ls).map fun leaf=>leaf.path.length).sum+ls.length =
  (ls.map fun leaf=>leaf.path.length).sum := by
 induction ls with
 | nil=>rfl
 | cons leaf ls ih=>
  unfold beside at h ih
  rw [filter_cons] at h
  split_ifs at h with hn
  have hr:=ih h
  cases hs : strip [text "*"] leaf with
  | none=>simp [hs] at hn
  | some found=>
   have hp:=congrArg List.length (strip_eq_some.mp hs).1
   have hl:leaf.path.length=found.path.length+1:=by
    rw [hp,length_append]
    simp [toPath]
    omega
   have hb:below [text "*"] (leaf::ls)=found::below [text "*"] ls:=by
    rw [below,filterMap_cons,hs]
    rfl
   rw [hb]
   simp only [map_cons,sum_cons,length_cons]
   omega

section

-- The leaves the client works with, and those of them that it should still send.
variable {working rest:List Leaf} (hsub:rest.Sublist working) {query:List (Bytes×Bytes)}
include hsub

/-- The selector of the empty name, which the client takes for no body. -/
theorem split_of_nil {names:List Bytes} (hq:query.Perm (working.map (Leaf.queryParam []))) :
 (([] : List Leaf).Perm (below names rest) ∧ query.Perm ((beside names rest).map Leaf.param)) ↔
  rest=working ∧ below names rest=[] ∧ ∀leaf∈beside names rest,PlainPath leaf.names := by
 have hb:(beside names rest).Sublist rest:=filter_sublist
 rw [nil_perm,params_perm_iff (hb.trans hsub) hq]
 constructor
 · rintro ⟨hbl,hs,hp⟩
   have hle:=hb.length_le
   rw [hs] at hle
   exact ⟨hsub.eq_of_length_le hle,hbl,hp⟩
 · rintro ⟨hs,hbl,hp⟩
   have hl:=below_length names rest
   rw [hbl,length_nil,Nat.zero_add] at hl
   exact ⟨hbl,(hb.eq_of_length hl).trans hs,hp⟩

/-- The selector of the name `*`, which the client takes for the whole request. -/
theorem split_of_star : (working.Perm (below [text "*"] rest) ∧
   ([] : List (Bytes×Bytes)).Perm ((beside [text "*"] rest).map Leaf.param)) ↔
  rest=working ∧ rest=[] := by
 rw [nil_perm,map_eq_nil_iff]
 constructor
 · rintro ⟨hp,hb⟩
   have hl:=below_length [text "*"] rest
   rw [hb,length_nil,Nat.add_zero] at hl
   have hs:rest=working:=hsub.eq_of_length (hl.symm.trans hp.length_eq.symm)
   subst hs
   -- Each leaf would have to keep the length of its path and lose a name from it.
   have hsm:=(hp.map fun leaf=>leaf.path.length).sum_eq
   have hpt:=sum_below_star hb
   exact ⟨rfl,List.length_eq_zero_iff.mp (by omega)⟩
 · rintro ⟨rfl,rfl⟩
   exact ⟨.refl _,rfl⟩

lemma split_of_field {names:List Bytes}
 (hq:query.Perm ((beside names working).map (Leaf.queryParam []))) :
 ((below names working).Perm (below names rest) ∧ query.Perm ((beside names rest).map Leaf.param)) ↔
  rest=working ∧ ∀leaf∈beside names rest,PlainPath leaf.names := by
 have hb:(beside names rest).Sublist (beside names working):=hsub.filter _
 rw [params_perm_iff hb hq]
 constructor
 · rintro ⟨hpr,hbs,hp⟩
   have hr:=below_length names rest
   have hw:=below_length names working
   rw [hpr.length_eq] at hw
   have hl:=congrArg List.length hbs
   exact ⟨hsub.eq_of_length (by omega),hp⟩
 · rintro ⟨rfl,hp⟩
   exact ⟨.refl _,rfl,hp⟩
end
end

section
variable {M:Type} (T:RequestTypes M) (m:M)
inductive BodySelector where
 | none
 | all
 | field (names:List Bytes)

def bodySelector (body:Bytes) : BodySelector :=
 if body=[] then .none else if body=text "*" then .all else .field (selectorNames T m body)

def bodyLeaves (body:Option Json) : List Leaf:=(body.map leaves).getD []

/-- A segment carries its literal, or the leaf that its variable addresses. -/
def PathCarries (args:Json) (s:PathSegment) (part:Bytes) : Prop :=
 if s.field=[] then part=s.literal
 else ∀leaf∈leaves args,leaf.path=toPath (selectorNames T m s.field) →
  encodePathValue leaf.value s.multi=.ok part

/-- Every leaf of the request is sent once: those that path variables address in the path, of the
  others those below the body selector in the body, at their path below it, and what then remains
  in the query, under its dotted path. -/
structure SentOnce (t:PathTemplate) (body:Bytes) (args:Json) (sent:Sent) : Prop where
 distinct : (variableNames T m t).Nodup
 path : Forall₂ (PathCarries T m args) t.segments sent.parts
 inBody : match bodySelector T m body with
  | .none=>sent.body=none
  | .all=>(bodyLeaves sent.body).Perm (restLeaves (variableNames T m t) args)
  | .field names=>(bodyLeaves sent.body).Perm (below names (restLeaves (variableNames T m t) args))
 inQuery : match bodySelector T m body with
  | .none=>sent.query.Perm ((restLeaves (variableNames T m t) args).map Leaf.param)
  | .all=>sent.query=[]
  | .field names=>
   sent.query.Perm ((beside names (restLeaves (variableNames T m t) args)).map Leaf.param)

/-- The empty name and the name `*` do not stand in the way of the request: no leaf is addressed by the
  empty name alone or lies deeper below it in the query, and a body selector that is the name `*`
  finds nothing left to send. -/
def NamesClear (t:PathTemplate) (body:Bytes) (args:Json) : Prop :=
 ([[]]∈variableNames T m t → ∀leaf∈leaves args,leaf.path≠toPath [[]]) ∧
 match bodySelector T m body with
 | .none=>∀leaf∈restLeaves (variableNames T m t) args,PlainPath leaf.names
 | .all=>True
 | .field names=>
  if names=[text "*"] then restLeaves (variableNames T m t) args=[]
  else (names=[[]] → below names (restLeaves (variableNames T m t) args)=[]) ∧
   ∀leaf∈beside names (restLeaves (variableNames T m t) args),PlainPath leaf.names

structure Accepted (t:PathTemplate) (b:HttpClientBinding) : Prop where
 segments : b.template.segments=t.segments.map (boundSegment T m)
 names : ∀s∈t.segments,s.field≠[] →
  selectorNames T m s.field≠[] ∧ ∀name∈selectorNames T m s.field,dot∉name
 distinct : (variableNames T m t).Nodup

variable {T m} {fullName:M → Bytes} {t:PathTemplate} {b:HttpClientBinding} {args:Json} {sent:Sent}
lemma sentParts_ok (h:sentParts b args=.ok sent) :
 Forall₂ (fun s part=>expandSegment args s=.ok part) b.template.segments sent.parts ∧
  sent.body=sentBody b (workingArgs b args) ∧
  encodeQuery b (remainingArgs b args)=.ok sent.query := by
 simp only [sentParts,bind_ok,pure_ok,mapM_ok] at h
 obtain ⟨parts,hp,query,hq,rfl⟩:=h
 exact ⟨hp,rfl,hq⟩

lemma getNestedField_names {names:List Bytes} (hne:names≠[]) (hd:∀name∈names,dot∉name)
 (args:Json) : getNestedField args ([dot].intercalate names)=names.foldlM Json.member args := by
 rw [getNestedField,splitOn_intercalate dot hd hne]

variable {s:PathSegment}
lemma boundSegment_field (h:s.field≠[]) :
 (boundSegment T m s).field=[dot].intercalate (selectorNames T m s.field) := by
 rw [boundSegment,if_neg h]

lemma boundSegment_multi (s:PathSegment) : (boundSegment T m s).multi=s.multi := by
 unfold boundSegment
 split_ifs <;> rfl

lemma Accepted.variable_value (ha:Accepted T m t b) (hs:s∈t.segments) (hf:s.field≠[])
 (hsn:selectorNames T m s.field≠[[]]) {part:Bytes}
 (hp:expandSegment args (boundSegment T m s)=.ok part) :
 ∃v,(selectorNames T m s.field).foldlM Json.member args=some v ∧ leaves v=[⟨[],v⟩] ∧
  encodePathValue v s.multi=.ok part := by
 obtain ⟨hne,hd⟩:=ha.names s hs hf
 rcases expandSegment_eq_ok hp with ⟨hem,-⟩|⟨-,v,hvalue,hen⟩
 · rw [boundSegment_field hf,intercalate_eq_iff hne (by simp)] at hem
   exact absurd hem hsn
 · rw [boundSegment_field hf,getNestedField_names hne hd] at hvalue
   rw [boundSegment_multi] at hen
   exact ⟨v,hvalue,leaves_of_encodePathValue hen,hen⟩

lemma mem_variableNames (hs:s∈t.segments) (hf:s.field≠[]) :
 selectorNames T m s.field∈variableNames T m t :=
 List.mem_map.mpr ⟨s,List.mem_filter.mpr ⟨hs,by simpa using hf⟩,rfl⟩

lemma Accepted.pathCarries (ha:Accepted T m t b) (har:WellFormed args)
 (hc:[[]]∈variableNames T m t → ∀leaf∈leaves args,leaf.path≠toPath [[]])
 (hs:s∈t.segments) {part:Bytes} (hp:expandSegment args (boundSegment T m s)=.ok part) :
 PathCarries T m args s part := by
 unfold PathCarries
 split_ifs with hf
 · rw [boundSegment,if_pos hf,expandSegment,if_pos hf] at hp
   exact (Except.ok.inj hp).symm
 · intro leaf hl hpt
   by_cases hsn : selectorNames T m s.field=[[]]
   · exact absurd (hsn ▸ hpt) (hc (hsn ▸ mem_variableNames hs hf) leaf hl)
   · obtain ⟨v,hvalue,hsc,hen⟩:=ha.variable_value hs hf hsn hp
     have hb:=below_leaves har (selectorNames T m s.field)
     rw [hvalue,Option.map_some,Option.getD_some,hsc] at hb
     have hst:strip (selectorNames T m s.field) leaf=some ⟨[],leaf.value⟩:=
      strip_eq_some.mpr ⟨by simpa using hpt,rfl⟩
     have hm:=List.mem_filterMap.mpr ⟨leaf,hl,hst⟩
     rw [show filterMap _ _=below _ _ from rfl,hb,mem_singleton] at hm
     rw [(Leaf.mk.inj hm).2]
     exact hen

lemma Accepted.working_leaves (ha:Accepted T m t b) (har:WellFormed args) {parts:List Bytes}
 (hpr:Forall₂ (fun s part=>expandSegment args s=.ok part) b.template.segments parts) :
 leaves (workingArgs b args)=restLeaves (seenNames (variableNames T m t)) args ∧
  WellFormed (workingArgs b args) := by
 have hsn:∀names∈seenNames (variableNames T m t),∃s∈t.segments,s.field≠[] ∧
   selectorNames T m s.field=names ∧ names≠[[]]:=by
  intro names hn
  obtain ⟨hvr,hne⟩:=List.mem_filter.mp hn
  obtain ⟨s,hs,rfl⟩:=List.mem_map.mp hvr
  obtain ⟨hm,hf⟩:=List.mem_filter.mp hs
  exact ⟨s,hm,by simpa using hf,rfl,by simpa using hne⟩
 have hvalue:∀names∈seenNames (variableNames T m t),∃v,
   names.foldlM Json.member args=some v ∧ leaves v=[⟨[],v⟩]:=by
  intro names hn
  obtain ⟨s,hs,hf,rfl,hne⟩:=hsn names hn
  have hb:boundSegment T m s∈b.template.segments:=ha.segments ▸ mem_map_of_mem hs
  obtain ⟨part,-,hpa⟩:=forall₂_mem_left hpr hb
  obtain ⟨v,hv,hsc,-⟩:=ha.variable_value hs hf hne hpa
  exact ⟨v,hv,hsc⟩
 rw [workingArgs,consumedFields_eq ha.segments fun s hs hf=>(ha.names s hs hf).1]
 obtain ⟨hl,hw⟩:=@foldl_deleteNestedField (seenNames (variableNames T m t))
  (fun names hn=>by
   obtain ⟨s,hs,hf,rfl,-⟩:=hsn names hn
   exact (ha.names s hs hf).1)
  (fun names hn=>by
   obtain ⟨s,hs,hf,rfl,-⟩:=hsn names hn
   exact (ha.names s hs hf).2) args har
 refine ⟨hl.trans (filter_congr fun leaf hlf=>?_),hw⟩
 have hp:∀names∈seenNames (variableNames T m t),
   ((strip names leaf).isNone=true ↔ leaf.path≠toPath names):=by
  intro names hn
  obtain ⟨v,hv,hsc⟩:=hvalue names hn
  exact strip_isNone_iff har hv hsc hlf
 rw [Bool.eq_iff_iff,all_eq_true,decide_eq_true_eq,mem_map]
 constructor
 · rintro hal ⟨names,hn,hpt⟩
   exact (hp names hn).mp (hal names hn) hpt.symm
 · intro hnn names hn
   exact (hp names hn).mpr fun hpt=>hnn ⟨names,hn,hpt.symm⟩

lemma sent_of_nil (hb:b.body=[]) (hs:sentParts b args=.ok sent) :
 sent.body=none ∧ sent.query.Perm ((leaves (workingArgs b args)).map (Leaf.queryParam [])) := by
 obtain ⟨-,hvalue,hq⟩:=sentParts_ok hs
 have hst:b.body≠text "*":=by
  rw [hb]
  decide
 rw [encodeQuery,if_pos hst,remainingArgs,if_neg fun h=>h.1 hb] at hq
 refine ⟨?_,encodeQueryFields_perm [] _ _ hq⟩
 unfold sentBody at hvalue
 rw [hvalue,if_pos hb]

lemma sent_of_star (hb:b.body=text "*") (hs:sentParts b args=.ok sent) :
 bodyLeaves sent.body=leaves (workingArgs b args) ∧ sent.query=[] := by
 obtain ⟨-,hvalue,hq⟩:=sentParts_ok hs
 have hne:b.body≠[]:=by
  rw [hb]
  decide
 rw [encodeQuery,if_neg (not_not.mpr hb)] at hq
 refine ⟨?_,(Except.ok.inj hq).symm⟩
 unfold sentBody at hvalue
 rw [hvalue,if_neg hne,if_pos hb]
 split
 · next hw=>
   split_ifs
   · rfl
   · rw [hw,leaves]
     simp [bodyLeaves,memberLeaves]
 · rfl

lemma sent_of_field {names:List Bytes} (hbd:b.body=[dot].intercalate names) (hne:names≠[])
 (hd:∀name∈names,dot∉name) (hem:names≠[[]]) (hs:names≠[text "*"])
 (hw:WellFormed (workingArgs b args)) (hsn:sentParts b args=.ok sent) :
 bodyLeaves sent.body=below names (leaves (workingArgs b args)) ∧
  sent.query.Perm ((beside names (leaves (workingArgs b args))).map (Leaf.queryParam [])) := by
 obtain ⟨-,hvalue,hq⟩:=sentParts_ok hsn
 have hbn:b.body≠[]:=by
  rw [hbd,ne_eq,intercalate_eq_iff hne (by simp)]
  exact hem
 have hb:b.body≠text "*":=by
  rw [hbd,ne_eq,intercalate_eq_iff hne (by decide)]
  exact hs
 constructor
 · unfold sentBody at hvalue
   rw [hvalue,if_neg hbn,if_neg hb,hbd,getNestedField_names hne hd,below_leaves hw]
   rfl
 · rw [encodeQuery,if_pos hb,remainingArgs,if_pos ⟨hbn,hb⟩] at hq
   have hp:=encodeQueryFields_perm [] _ _ hq
   rw [deleteNestedField,hbd,splitOn_intercalate dot hd hne,leaves_deleteParts hw hne] at hp
   exact hp

/-- The client sends every leaf once exactly if the empty name and the name `*` are not in its way. -/
theorem Accepted.sentOnce_iff (ha:Accepted T m t b) {body:Bytes} (hbd:b.body=boundBody T m body)
 (hsc:body≠[] → body≠text "*" →
  selectorNames T m body≠[] ∧ ∀name∈selectorNames T m body,dot∉name)
 (har:WellFormed args) (hsn:sentParts b args=.ok sent) :
 SentOnce T m t body args sent ↔ NamesClear T m t body args := by
 obtain ⟨hw,hwl⟩:=ha.working_leaves har (sentParts_ok hsn).1
 have hc:=restLeaves_eq_iff (variableNames T m t) args
 have hsub:=restLeaves_sublist (variableNames T m t) args
 -- The path is right as soon as no variable is overlooked.
 have hpt:([[]]∈variableNames T m t → ∀leaf∈leaves args,leaf.path≠toPath [[]]) →
   Forall₂ (PathCarries T m args) t.segments sent.parts:=by
  intro hn
  have hps:=(sentParts_ok hsn).1
  rw [ha.segments,forall₂_map_left_iff] at hps
  exact forall₂_imp_of_mem hps fun s hs part hpa=>ha.pathCarries har hn hs hpa
 by_cases hnil : body=[]
 · have hsl:bodySelector T m body=.none:=by rw [bodySelector,if_pos hnil]
   obtain ⟨hvalue,hq⟩:=sent_of_nil (hbd.trans (by rw [boundBody,if_pos (.inl hnil),hnil])) hsn
   rw [hw] at hq
   have hpr:=params_perm_iff hsub hq
   constructor
   · intro hs
     have hi:=hs.inQuery
     rw [hsl] at hi
     obtain ⟨hsm,hp⟩:=hpr.mp hi
     refine ⟨hc.mp hsm,?_⟩
     rw [hsl]
     exact hp
   · rintro ⟨hn,hp⟩
     rw [hsl] at hp
     refine ⟨ha.distinct,hpt hn,?_,?_⟩
     · rw [hsl]
       exact hvalue
     · rw [hsl]
       exact hpr.mpr ⟨hc.mpr hn,hp⟩
 by_cases hst : body=text "*"
 · have hsl:bodySelector T m body=.all:=by rw [bodySelector,if_neg hnil,if_pos hst]
   obtain ⟨hl,hq⟩:=sent_of_star (hbd.trans (by rw [boundBody,if_pos (.inr hst),hst])) hsn
   rw [hw] at hl
   constructor
   · intro hs
     have hib:=hs.inBody
     rw [hsl,hl] at hib
     refine ⟨hc.mp (hsub.eq_of_length hib.length_eq.symm),?_⟩
     rw [hsl]
     trivial
   · rintro ⟨hn,-⟩
     refine ⟨ha.distinct,hpt hn,?_,?_⟩
     · rw [hsl,hl,hc.mpr hn]
     · rw [hsl]
       exact hq
 obtain ⟨hne,hd⟩:=hsc hnil hst
 have hsl:bodySelector T m body=.field (selectorNames T m body):=by
  rw [bodySelector,if_neg hnil,if_neg hst]
 have hb:b.body=[dot].intercalate (selectorNames T m body):=by
  rw [hbd,boundBody,if_neg (not_or.mpr ⟨hnil,hst⟩)]
 generalize selectorNames T m body=names at hne hd hsl hb
 have hsp:((bodyLeaves sent.body).Perm (below names (restLeaves (variableNames T m t) args)) ∧
    sent.query.Perm ((beside names (restLeaves (variableNames T m t) args)).map Leaf.param)) ↔
   NamesClear T m t body args:=by
  unfold NamesClear
  rw [hsl,←hc]
  dsimp only
  by_cases hwh : names=[text "*"]
  · obtain ⟨hl,hq⟩:=sent_of_star (hb.trans ((intercalate_eq_iff hne (by decide)).mpr hwh)) hsn
    rw [if_pos hwh,hl,hw,hq,hwh]
    exact split_of_star hsub
  rw [if_neg hwh]
  by_cases hem : names=[[]]
  · obtain ⟨hvalue,hq⟩:=sent_of_nil (hb.trans ((intercalate_eq_iff hne (by simp)).mpr hem)) hsn
    rw [hw] at hq
    have hnt:bodyLeaves sent.body=[]:=by rw [hvalue];rfl
    rw [hnt,split_of_nil hsub hq]
    simp [hem]
  · obtain ⟨hl,hq⟩:=sent_of_field hb hne hd hem hwh hwl hsn
    rw [hw] at hl hq
    rw [hl,split_of_field hsub hq]
    simp [hem]
 constructor
 · intro hs
   have hib:=hs.inBody
   have hi:=hs.inQuery
   rw [hsl] at hib hi
   exact hsp.mp ⟨hib,hi⟩
 · intro hn
   obtain ⟨hib,hi⟩:=hsp.mpr hn
   refine ⟨ha.distinct,hpt hn.1,?_,?_⟩
   · rw [hsl]
     exact hib
   · rw [hsl]
     exact hi

/-- Whenever `build` succeeds, what it prints sends every leaf of the request once exactly if the
  empty name and the name `*` are not in its way. -/
theorem request_sent_once_iff (hdot:∀m part f,T.field m part=some f → dot∉f.jsonName)
  {pattern body:Bytes} (hb:newHTTPClientBinding (goField T) fullName pattern body m=.ok b)
  (hdistinct:∀t,parsePathTemplate pattern=.ok t →
   ((t.segments.filter fun s=>s.field≠[]).map fun s=>s.field).Nodup)
  (hargs:WellFormed args) {marshal:Json → Bytes} {base:BaseURL} {output:Option Bytes×Bytes}
  (hbuild:build marshal b args base=.ok output) :
  ∃t sent,parsePathTemplate pattern=.ok t ∧ sentParts b args=.ok sent ∧
   output=(sent.body.map marshal,
    urlString base (joinBasePath base (endpointPath b.template sent.parts)) (encodeValues sent.query)) ∧
   (SentOnce T m t body args sent ↔ NamesClear T m t body args) := by
 obtain ⟨t,ht,hsg,hpt,hbd,hsl⟩:=binding_ok hdot hb
 have ha:Accepted T m t b := by
  refine ⟨hsg,fun s hs hf=>?_,?_⟩
  · obtain ⟨path,hp⟩:=hpt s hs hf
    exact (selector_ok hdot hp).2
  · have hm:variableNames T m t =
      ((t.segments.filter fun s=>s.field≠[]).map fun s=>s.field).map (selectorNames T m) := by
     rw [map_map]
     rfl
    rw [hm]
    apply List.Nodup.map_on _ (hdistinct t ht)
    intro field hf field' hf' heq
    obtain ⟨s,hs,rfl⟩:=List.mem_map.mp hf
    obtain ⟨s',hs',rfl⟩:=List.mem_map.mp hf'
    obtain ⟨hmm,hne⟩:=List.mem_filter.mp hs
    obtain ⟨hm',hn'⟩:=List.mem_filter.mp hs'
    obtain ⟨path,hp⟩:=hpt s hmm (by simpa using hne)
    obtain ⟨path',hp'⟩:=hpt s' hm' (by simpa using hn')
    exact selectorNames_inj hp hp' heq
 rw [build_eq] at hbuild
 cases hsn : sentParts b args with
 | error e=>
  rw [hsn] at hbuild
  cases hbuild
 | ok sent=>
  rw [hsn] at hbuild
  refine ⟨t,sent,ht,rfl,(Except.ok.inj hbuild).symm,?_⟩
  apply ha.sentOnce_iff hbd _ hargs hsn
  intro hnil hst
  obtain ⟨path,hp⟩:=hsl hnil hst
  exact (selector_ok hdot hp).2
end

inductive CatalogMessage where
 | request
 | book

def catalogField : CatalogMessage → Bytes → Option (RequestField CatalogMessage)
 | .request,part=>
  if part=text "name" then some ⟨text "name",.scalar⟩
  else if part=text "book" then some ⟨text "book",.message .book⟩
  else if part=text "everything" then some ⟨text "*",.scalar⟩
  else if part=text "page_size" then some ⟨text "pageSize",.scalar⟩
  else none
 | .book,part=>if part=text "title" then some ⟨text "title",.scalar⟩ else none

def catalogTypes : RequestTypes CatalogMessage where
 field:=catalogField
 form _:=.fields
 jsonName_unique := by
  have hnames:[text "name",text "book",text "*",text "pageSize"].Nodup := by decide
  simp only [nodup_cons,mem_cons,not_mem_nil,or_false,not_or] at hnames
  intro m part part' f f' hf hf' hname
  cases m <;> simp only [catalogField] at hf hf' <;> grind

lemma catalogTypes_dotFree : ∀m part f,catalogTypes.field m part=some f → dot∉f.jsonName := by
 have hn:∀name∈[text "name",text "book",text "*",text "pageSize",text "title"],
   dot∉name:=by decide
 intro m part f hf
 cases m <;> simp only [catalogTypes,catalogField] at hf <;> grind

def catalogFullName (_:CatalogMessage) : Bytes:=text "catalog.v1.Request"

def catalogBase : BaseURL where
 origin:=text "http://h"
 path:=[]
 rawPath:=[]
 rooted := by simp
 spelled := by simp

def starArgs : Json:=.object [text "*",text "pageSize"] [.string (text "a"),.number (text "2")]

/-- The body selector `everything` has the JSON name `*`: the whole request becomes the body, and the
  page size, which belongs in the query, is sent with it. -/
theorem star_name_not_split :
  ∃b sent,newHTTPClientBinding (goField catalogTypes) catalogFullName (text "/v1/books")
    (text "everything") .request=.ok b ∧
   WellFormed starArgs ∧ sentParts b starArgs=.ok sent ∧ sent.body=some starArgs ∧
   sent.query=[] ∧
   ¬SentOnce catalogTypes .request { segments:=[{ literal:=text "v1" },{ literal:=text "books" }] }
    (text "everything") starArgs sent := by
 refine ⟨⟨text "*",{ segments:=[{ literal:=text "v1" },{ literal:=text "books" }] },false⟩,
  ⟨[text "v1",text "books"],some starArgs,[]⟩,rfl,?_,rfl,rfl,rfl,?_⟩
 · exact ⟨by decide,trivial,trivial,trivial⟩
 · intro hs
   have hq:([] : List (Bytes×Bytes)).Perm
     ((beside [text "*"] (restLeaves [] starArgs)).map Leaf.param):=hs.inQuery
   exact absurd (List.nil_perm.mp hq) (by decide)

def bookArgs : Json :=
 .object [text "name",text "book",text "pageSize"]
  [.string (text "n"),.object [text "title"] [.string (text "t")],.number (text "2")]

theorem book_sent_once : ∃sent,SentOnce catalogTypes .request
  { segments:=[{ literal:=text "v1" },{ field:=text "name" }] } (text "book") bookArgs sent := by
 have hp:parsePathTemplate (text "/v1/\x7bname\x7d") =
   .ok { segments:=[{ literal:=text "v1" },{ field:=text "name" }] }:=rfl
 have hw:WellFormed bookArgs := by
  refine ⟨by decide,trivial,⟨by decide,trivial,trivial⟩,trivial,trivial⟩
 obtain ⟨t,sent,ht,-,-,hi⟩:=@request_sent_once_iff _ catalogTypes .request catalogFullName
  ⟨text "book",{ segments:=[{ literal:=text "v1" },{ field:=text "name" }] },false⟩ bookArgs
  catalogTypes_dotFree (text "/v1/\x7bname\x7d") (text "book") rfl
  (fun t ht=>by
   rw [hp] at ht
   rw [← Except.ok.inj ht]
   decide) hw (fun _=>[]) catalogBase _ rfl
 rw [hp] at ht
 rw [← Except.ok.inj ht] at hi
 have hs:bodySelector catalogTypes .request (text "book")=.field [text "book"]:=rfl
 refine ⟨sent,hi.mpr ⟨fun hm=>absurd hm (by decide),?_⟩⟩
 rw [hs]
 dsimp only
 rw [if_neg (by decide)]
 exact ⟨fun hem=>absurd hem (by decide),by decide⟩
end InvariantProtocol.RequestPartition
