import InvariantProtocol.HttpClient
/-! The path of a built URL: values are escaped by `PathEscape` and, as `Path` of the URL, once more by
`String`. -/
namespace InvariantProtocol.HttpClientPath
open ListRelations GoResult PercentEncoding HttpClient
open List hiding tail

section

lemma parseSegment_literal {last:Bool} {raw:Bytes} {segment:PathSegment}
 (h:parseSegment last raw=.ok segment) : segment.literal=raw ∨ segment.literal=[] := by
 unfold parseSegment at h
 split at h
 · right
   simp only at h
   repeat' split at h
   all_goals cases h
   all_goals rfl
 · cases h
   exact .inl rfl

/-- A literal segment of a template is one segment of the path. -/
def LiteralsWhole (segments:List PathSegment) : Prop := ∀s∈segments,slash∉s.literal

lemma parseSegments_literals {raws:List Bytes} {segments:List PathSegment}
 (h:parseSegments raws=.ok segments) (hrw:∀raw∈raws,slash∉raw) : LiteralsWhole segments := by
 induction raws generalizing segments with
 | nil=>
  cases h
  simp [LiteralsWhole]
 | cons raw rest ih=>
  simp only [parseSegments,bind_ok,pure_ok] at h
  obtain ⟨segment,hsg,segments,hs,rfl⟩:=h
  have hrs:=ih hs fun r hr=>hrw r (mem_cons_of_mem _ hr)
  refine List.forall_mem_cons.2 ⟨?_,hrs⟩
  rcases parseSegment_literal hsg with hl|hl
  · rw [hl]
    exact hrw raw mem_cons_self
  · simp [hl]

variable {pattern:Bytes}
lemma parsePathTemplate_literals {template:PathTemplate}
 (h:parsePathTemplate pattern=.ok template) : LiteralsWhole template.segments := by
 unfold parsePathTemplate at h
 split at h
 · cases h
 · split at h
   · cases h
     simp [LiteralsWhole]
   · simp only [bind_ok,pure_ok] at h
     obtain ⟨segments,hs,rfl⟩:=h
     exact parseSegments_literals hs (not_mem_of_mem_splitOn _)

variable {M:Type} {lookupField:M → Bytes → Option (FieldInfo M)} {fullName:M → Bytes}
lemma bindSegment_literal {request:M} {s t:PathSegment}
 (h:bindSegment lookupField fullName request pattern s=.ok t) : t.literal=s.literal := by
 unfold bindSegment at h
 split at h
 · cases h
   rfl
 · split at h <;> cases h
   rfl

lemma binding_literals {body:Bytes} {request:M} {b:HttpClientBinding}
 (h:newHTTPClientBinding lookupField fullName pattern body request=.ok b) :
 LiteralsWhole b.template.segments := by
 simp only [newHTTPClientBinding,bind_ok,pure_ok] at h
 obtain ⟨template,htm,segments,hsg,-,-,rfl⟩:=h
 have hpr:parsePathTemplate pattern=.ok template:=by
  cases hp : parsePathTemplate pattern with
  | ok t=>
   rw [hp] at htm
   exact htm
  | error e=>
   rw [hp] at htm
   cases htm
 have hl:=parsePathTemplate_literals hpr
 intro t ht
 obtain ⟨s,hs,hst⟩:=forall₂_mem_right (mapM_ok.1 hsg) ht
 rw [bindSegment_literal hst]
 exact hl s hs
end

section

def fieldValue (args:Json) (s:PathSegment) : Option Bytes :=
 match getNestedField args s.field with
 | some (.string v)=>some v
 | _=>none

/-- The path segments a template segment should become; a literal may become any. -/
def expectedPieces (args:Json) (s:PathSegment) : List (Option Bytes) :=
 if s.field=[] then [none]
 else match fieldValue args s with
  | some v=>if s.multi then (v.splitOn slash).map some else [some v]
  | none=>[]

def expectedPath (template:PathTemplate) (args:Json) : List (Option Bytes) :=
 if template.segments=[] then [none]
 else template.segments.flatMap (expectedPieces args)++if template.trailingSlash then [none] else []

def sentPieces (args:Json) (s:PathSegment) : List Bytes :=
 if s.field=[] then [s.literal]
 else match fieldValue args s with
  | some v=>if s.multi then (v.splitOn slash).map pathEscape else [pathEscape v]
  | none=>[]

def sentPath (template:PathTemplate) (args:Json) : List Bytes :=
 if template.segments=[] then [[]]
 else template.segments.flatMap (sentPieces args)++if template.trailingSlash then [[]] else []

/-- The bytes of a value that `PathEscape` leaves alone. -/
def Plain (multi:Bool) (v:Bytes) : Prop := ∀b∈v,keepSegment b=true ∨ (multi=true ∧ b=slash)

def Matches (piece:Bytes) (expected:Option Bytes) : Prop := ∀v,expected=some v → piece=v

variable {args:Json} {s:PathSegment}
lemma slash_not_mem_pathEscape (v:Bytes) : slash∉pathEscape v :=
 not_mem_escape (by decide) (by decide) (by decide) v

lemma expandSegment_splitOn {part v:Bytes} (h:expandSegment args s=.ok part)
 (hl:slash∉s.literal) (hvalue:s.field≠[] → fieldValue args s=some v) :
 part.splitOn slash=sentPieces args s := by
 unfold expandSegment at h
 unfold sentPieces
 by_cases hf : s.field=[]
 · rw [if_pos hf] at h ⊢
   cases h
   exact splitOn_eq_singleton hl
 · rw [if_neg hf] at h ⊢
   have hg:getNestedField args s.field=some (.string v):=by
    have hv:=hvalue hf
    unfold fieldValue at hv
    split at hv
    · next hg=>rw [hg,Option.some.inj hv]
    · cases hv
   rw [hg] at h
   rw [hvalue hf]
   cases hm : s.multi with
   | false=>
    rw [hm] at h
    cases h
    exact splitOn_eq_singleton (slash_not_mem_pathEscape v)
   | true=>
    rw [hm] at h
    cases h
    refine splitOn_intercalate slash ?_ ?_
    · intro piece hp
      obtain ⟨w,-,rfl⟩:=List.mem_map.1 hp
      exact slash_not_mem_pathEscape w
    · simp

/-- Every variable of the template is a string of the request. -/
def Addressed (args:Json) (segments:List PathSegment) : Prop :=
 ∀s∈segments,s.field≠[] → ∃v,fieldValue args s=some v

lemma expandSegments_splitOn {segments:List PathSegment} {parts:List Bytes}
 (h:Forall₂ (fun s part=>expandSegment args s=.ok part) segments parts)
 (hw:LiteralsWhole segments) (hs:Addressed args segments) :
 parts.flatMap (fun part=>part.splitOn slash)=segments.flatMap (sentPieces args) := by
 induction h with
 | nil=>rfl
 | @cons s part segments parts hp _ ih=>
  obtain ⟨hl,hw⟩:=List.forall_mem_cons.1 hw
  obtain ⟨hfr,hs⟩:=List.forall_mem_cons.1 hs
  have hsp:part.splitOn slash=sentPieces args s:=by
   by_cases hf : s.field=[]
   · exact @expandSegment_splitOn args s part [] hp hl fun hne=>absurd hf hne
   · obtain ⟨v,hv⟩:=hfr hf
     exact expandSegment_splitOn hp hl fun _=>hv
  rw [flatMap_cons,flatMap_cons,hsp,ih hw hs]

variable {template:PathTemplate}
lemma expandPath_splitOn {endpoint:Bytes} {used:List Bytes}
 (h:expandPath template args=.ok (endpoint,used)) (hw:LiteralsWhole template.segments)
 (hst:Addressed args template.segments) :
 ∃body,endpoint=slash::body ∧ body.splitOn slash=sentPath template args := by
 unfold expandPath at h
 unfold sentPath
 by_cases hs : template.segments=[]
 · rw [if_pos hs] at h ⊢
   cases h
   exact ⟨[],rfl,rfl⟩
 · rw [if_neg hs] at h ⊢
   simp only [bind_ok,pure_ok] at h
   obtain ⟨parts,hp,heq⟩:=h
   obtain ⟨rfl,-⟩:=Prod.mk.inj heq
   have hf:=mapM_ok.1 hp
   have hne:parts≠[]:=by
    rintro rfl
    exact hs (List.forall₂_nil_right_iff.1 hf)
   have hsp:=(splitOn_intercalate_flatMap hne).trans
    (expandSegments_splitOn hf hw hst)
   cases template.trailingSlash with
   | false=>exact ⟨_,rfl,by simpa using hsp⟩
   | true=>
    refine ⟨[slash].intercalate parts++[slash],rfl,?_⟩
    rw [splitOn_append_cons_self,hsp]
    rfl

lemma matches_some {piece v:Bytes} : Matches piece (some v) ↔ piece=v := by
 simp [Matches]

lemma matches_none (piece:Bytes) : Matches piece none := by
 simp [Matches]

lemma pathEscape_eq_self {v:Bytes} : pathEscape v=v ↔ ∀b∈v,keepSegment b=true :=
 escape_eq_self

lemma pieces_plain {v:Bytes} : (∀piece∈v.splitOn slash,pathEscape piece=piece) ↔ Plain true v := by
 unfold Plain
 simp only [pathEscape_eq_self]
 constructor
 · intro h b hb
   by_cases heq : b=slash
   · exact .inr ⟨trivial,heq⟩
   · obtain ⟨piece,hp,hm⟩:=(mem_splitOn v).2 ⟨hb,heq⟩
     exact .inl (h piece hp b hm)
 · intro h piece hp b hb
   obtain ⟨hm,hne⟩:=(mem_splitOn v).1 ⟨piece,hp,hb⟩
   rcases h b hm with hk|⟨-,heq⟩
   · exact hk
   · exact absurd heq hne

lemma sentPieces_matches : Forall₂ Matches (sentPieces args s) (expectedPieces args s) ↔
 (s.field≠[] → ∀v,fieldValue args s=some v → Plain s.multi v) := by
 unfold sentPieces expectedPieces
 by_cases hf : s.field=[]
 · simp [hf,matches_none]
 · rw [if_neg hf,if_neg hf]
   simp only [ne_eq,hf,not_false_eq_true,forall_const]
   cases fieldValue args s with
   | none=>simp
   | some v=>
    simp only [Option.some.injEq,forall_eq']
    cases s.multi with
    | false=>simp [matches_some,pathEscape_eq_self,Plain]
    | true=>
     rw [←pieces_plain]
     simp only [if_true,forall₂_map_left_iff,forall₂_map_right_iff,matches_some,forall₂_same]

lemma length_sentPieces : (sentPieces args s).length=(expectedPieces args s).length := by
 unfold sentPieces expectedPieces
 split
 · rfl
 · split
   · split <;> simp
   · rfl

lemma sentPath_matches :
 Forall₂ Matches (sentPath template args) (expectedPath template args) ↔
  ∀s∈template.segments,s.field≠[] → ∀v,fieldValue args s=some v → Plain s.multi v := by
 unfold sentPath expectedPath
 by_cases hs : template.segments=[]
 · simp [hs,matches_none]
 · rw [if_neg hs,if_neg hs]
   have ha:∀segments : List PathSegment,
     (segments.flatMap (sentPieces args)).length=(segments.flatMap (expectedPieces args)).length ∧
     (Forall₂ Matches (segments.flatMap (sentPieces args))
      (segments.flatMap (expectedPieces args)) ↔
     ∀s∈segments,s.field≠[] → ∀v,fieldValue args s=some v → Plain s.multi v):=by
    intro segments
    induction segments with
    | nil=>simp
    | cons s segments ih=>
     rw [flatMap_cons,flatMap_cons,forall₂_append_iff length_sentPieces,forall_mem_cons,
      sentPieces_matches,ih.2]
     exact ⟨by simp [length_sentPieces,ih.1],Iff.rfl⟩
   obtain ⟨hl,hi⟩:=ha template.segments
   rw [forall₂_append_iff hl,hi]
   cases template.trailingSlash <;> simp [matches_none]
end

section

def question : UInt8:=63

def hash : UInt8:=35

def urlPath (base:BaseURL) (url:Bytes) : Bytes :=
 (url.drop base.origin.length).takeWhile fun b=>b≠question ∧ b≠hash

/-- Behind the base path, the decoded segments of the URL's path are the expected ones. -/
def Survives (base:BaseURL) (template:PathTemplate) (args:Json) (url:Bytes) : Prop :=
 ∃front body pieces,urlPath base url=front++slash::body ∧
  unescape front=some (basePath base) ∧ (body.splitOn slash).mapM unescape=some pieces ∧
  Forall₂ Matches pieces (expectedPath template args)

/-- The template and its values make the path `/`. -/
def Bare (template:PathTemplate) (args:Json) : Prop :=
 template.segments=[] ∨ template.trailingSlash=false ∧ ∃s,template.segments=[s] ∧
  if s.field=[] then s.literal=[] else fieldValue args s=some []

lemma sentPieces_empty (ha:s.field≠[] → ∃v,fieldValue args s=some v) : sentPieces args s≠[] ∧
 (sentPieces args s=[[]] ↔ if s.field=[] then s.literal=[] else fieldValue args s=some []) := by
 have he:∀v,pathEscape v=[] ↔ v=[]:=by
  refine fun v=>⟨fun h=>length_eq_zero_iff.1 ?_,fun h=>by rw [h];rfl⟩
  exact Nat.le_zero.1 ((length_le_escape keepSegment v).trans_eq (congrArg length h))
 unfold sentPieces
 by_cases hf : s.field=[]
 · simp [hf]
 · obtain ⟨v,hv⟩:=ha hf
   rw [if_neg hf,if_neg hf,hv]
   cases s.multi with
   | false=>simp [he]
   | true=>
    refine ⟨by simp,⟨fun h=>?_,fun h=>?_⟩⟩
    · obtain ⟨w,hw,hwe⟩:=map_eq_singleton_iff.1 h
      rw [←@intercalate_splitOn _ v _ _ slash,hw,(he w).1 hwe]
      rfl
    · rw [Option.some.inj h]
      rfl

lemma sentPath_empty (hst:Addressed args template.segments) :
 sentPath template args=[[]] ↔ Bare template args := by
 unfold sentPath Bare
 match hs : template.segments with
 | []=>simp
 | [s]=>
  obtain ⟨hne,he⟩:=sentPieces_empty (hst s (by simp [hs]))
  cases template.trailingSlash <;> simp [he,hne]
 | s::s'::rest=>
  have hne:=(sentPieces_empty (hst s (by simp [hs]))).1
  have hne':=(sentPieces_empty (hst s' (by simp [hs]))).1
  have hl:=length_pos_iff.2 hne
  have hl':=length_pos_iff.2 hne'
  simp only [reduceCtorEq,if_false,cons.injEq,and_false,exists_false,or_false,false_and,iff_false]
  intro h
  have hlen:=congrArg length h
  simp only [flatMap_cons,length_append,length_singleton] at hlen
  omega

/-- `String` writes the base URL's own spelling of a path equal to the base path. -/
def reusesRawPath (base:BaseURL) (endpoint:Bytes) : Prop :=
 base.rawPath≠[] ∧ validEncoded base.rawPath=true ∧
  unescape base.rawPath=some (joinBasePath base endpoint)

lemma joinBasePath_eq (base:BaseURL) (endpoint:Bytes) :
 joinBasePath base endpoint=basePath base++endpoint := by
 unfold joinBasePath
 split
 · next h=>rw [h,nil_append]
 · split
   · next h=>rw [h]
   · rfl

lemma joinBasePath_ne_star (base:BaseURL) (body:Bytes) : joinBasePath base (slash::body)≠text "*" := by
 rw [joinBasePath_eq]
 intro heq
 have hh:(basePath base++slash::body).head?=some slash:=by
  cases hp : basePath base with
  | nil=>rfl
  | cons b rest=>
   have hr:base.path.head?=some slash:=base.rooted (by
    rintro hnil
    simp [basePath,hnil] at hp)
   unfold basePath at hp
   split at hp
   · cases hb : base.path with
     | nil=>simp [hb] at hp
     | cons c tail=>
      rw [hb] at hr hp
      cases tail with
      | nil=>simp at hp
      | cons d tail=>
       rw [dropLast_cons_cons] at hp
       obtain ⟨rfl,-⟩:=List.cons.inj hp
       exact hr
   · rw [hp] at hr
     exact hr
 rw [heq] at hh
 exact absurd hh (by decide)

lemma escapedPath_clean (path rawPath:Bytes) (hs:path≠text "*") :
 ∀b∈escapedPath path rawPath,b≠question ∧ b≠hash := by
 intro b hb
 unfold escapedPath at hb
 rw [if_neg hs] at hb
 split at hb
 · next h=>
   have hv:=List.all_eq_true.1 h.2.1 b hb
   constructor
   · rintro rfl
     exact absurd hv (by decide)
   · rintro rfl
     exact absurd hv (by decide)
 · constructor
   · rintro rfl
     exact not_mem_escape (by decide) (by decide) (by decide) path hb
   · rintro rfl
     exact not_mem_escape (by decide) (by decide) (by decide) path hb

lemma urlPath_urlString (base:BaseURL) (path rawQuery:Bytes) (hs:path≠text "*") :
 urlPath base (urlString base path rawQuery)=escapedPath path base.rawPath := by
 have hc:∀b∈escapedPath path base.rawPath,
   decide (b≠question ∧ b≠hash)=true:=fun b hb=>by
  simpa using escapedPath_clean path base.rawPath hs b hb
 have ht:((if base.forceQuery ∨ rawQuery≠[] then text "?"++rawQuery else []) ++
   (if base.fragment≠[] then text "#"++base.fragment else []) : Bytes).takeWhile
    (fun b=>b≠question ∧ b≠hash)=[]:=by
  split
  · rfl
  · split <;> rfl
 unfold urlPath urlString
 rw [append_assoc,append_assoc,drop_left,takeWhile_append_of_pos hc,ht,
  append_nil]

variable {base:BaseURL} {template:PathTemplate} {args:Json} {url:Bytes}
/-- The base path ends at one place of the URL's path only. -/
theorem survives_iff_rest {front rest:Bytes} (hu:urlPath base url=front++rest)
 (hf:unescape front=some (basePath base)) : Survives base template args url ↔
  ∃body pieces,rest=slash::body ∧ (body.splitOn slash).mapM unescape=some pieces ∧
   Forall₂ Matches pieces (expectedPath template args) := by
 constructor
 · rintro ⟨front',body,pieces,hu',hf',hp,hm⟩
   obtain ⟨-,hr⟩:=front_unique hf hf' (hu.symm.trans hu')
   exact ⟨body,pieces,hr,hp,hm⟩
 · rintro ⟨body,pieces,rfl,hp,hm⟩
   exact ⟨front,body,pieces,hu,hf,hp,hm⟩

variable {body:Bytes}
lemma basePath_append_slash (h:basePath base++slash::body=base.path) : body=[] := by
 have hl:=congrArg List.length h
 unfold basePath at hl
 rw [length_append,length_cons] at hl
 split at hl
 · rw [length_dropLast] at hl
   exact List.length_eq_zero_iff.1 (by omega)
 · omega

lemma survives_escaped (hu:urlPath base url=escape keepPath (basePath base++slash::body)) :
 Survives base template args url ↔
  Forall₂ Matches (body.splitOn slash) (expectedPath template args) := by
 rw [escape_append,escape_cons_keep (by decide)] at hu
 rw [survives_iff_rest hu (unescape_escape (by decide) _)]
 have hp:((escape keepPath body).splitOn slash).mapM unescape=some (body.splitOn slash):=by
  rw [splitOn_escape (by decide),mapM_unescape (by decide)]
 constructor
 · rintro ⟨body',pieces,hr,hp',hm⟩
   obtain ⟨-,rfl⟩:=List.cons.inj hr
   rw [hp,Option.some.injEq] at hp'
   rwa [hp']
 · exact fun hm=>⟨_,_,rfl,hp,hm⟩

lemma survives_raw (hu:urlPath base url=base.rawPath)
 (hrw:unescape base.rawPath=some (basePath base++[slash])) : Survives base template args url ↔
  base.rawPath.getLast?=some slash ∧ Forall₂ Matches [[]] (expectedPath template args) := by
 obtain ⟨front,rest,hs,hf,hr⟩:=unescape_eq_append hrw
 rw [survives_iff_rest (hu.trans hs) hf,hs]
 rcases unescape_eq_cons hr with ⟨-,tail,rfl,ht⟩ |
   ⟨high,low,tail,rfl,⟨x,y,-,hy,-⟩,ht⟩ <;> obtain rfl:=unescape_eq_nil ht
 · simp only [List.getLast?_append,List.getLast?_singleton,Option.some_or,true_and]
   constructor
   · rintro ⟨body,pieces,hb,hp,hm⟩
     obtain ⟨-,rfl⟩:=List.cons.inj hb
     cases hp
     exact hm
   · exact fun hm=>⟨[],[[]],rfl,rfl,hm⟩
 · -- The last slash of the base path is spelled with a percent sign.
   refine iff_of_false ?_ ?_
   · rintro ⟨body,pieces,hb,-⟩
     exact absurd (List.cons.inj hb).1 (by decide)
   · rintro ⟨hl,-⟩
     obtain rfl : low=slash:=by simpa using hl
     rw [show unhex slash=none by decide] at hy
     cases hy

lemma reusesRawPath_iff (hb:body.splitOn slash=sentPath template args)
 (hst:Addressed args template.segments) : reusesRawPath base (slash::body) ↔
  Bare template args ∧ base.rawPath≠[] ∧ validEncoded base.rawPath=true ∧ base.path.getLast?=some slash := by
 rw [←sentPath_empty hst,←hb,reusesRawPath,joinBasePath_eq]
 constructor
 · rintro ⟨hne,hv,hd⟩
   have hp:=Option.some.inj (hd.symm.trans (base.spelled hne))
   obtain rfl:=basePath_append_slash hp
   exact ⟨rfl,hne,hv,by rw [←hp,getLast?_concat]⟩
 · rintro ⟨he,hne,hv,hl⟩
   obtain rfl : body=[]:=by rw [←@intercalate_splitOn _ body _ _ slash,he];rfl
   refine ⟨hne,hv,?_⟩
   rw [base.spelled hne,basePath,if_pos hl,dropLast_append_getLast? slash hl]

variable {endpoint:Bytes}
lemma escapedPath_reused (h:reusesRawPath base endpoint) :
 escapedPath (joinBasePath base endpoint) base.rawPath=base.rawPath := if_pos h

lemma escapedPath_escaped (h:¬reusesRawPath base endpoint)
 (hs:joinBasePath base endpoint≠text "*") : escapedPath (joinBasePath base endpoint) base.rawPath =
  escape keepPath (basePath base++endpoint) := by
 rw [←joinBasePath_eq]
 exact (if_neg h).trans (if_neg hs)

lemma survives_iff {rawQuery:Bytes} {used:List Bytes}
 (hp:expandPath template args=.ok (endpoint,used)) (hw:LiteralsWhole template.segments)
 (hst:Addressed args template.segments) :
 Survives base template args (urlString base (joinBasePath base endpoint) rawQuery) ↔
  (∀s∈template.segments,s.field≠[] → ∀v,fieldValue args s=some v → Plain s.multi v) ∧
   (Bare template args → base.rawPath≠[] → validEncoded base.rawPath=true →
    base.path.getLast?=some slash → base.rawPath.getLast?=some slash) := by
 obtain ⟨body,rfl,hb⟩:=expandPath_splitOn hp hw hst
 have hs:=joinBasePath_ne_star base body
 have hu:=urlPath_urlString base _ rawQuery hs
 have hre:=@reusesRawPath_iff base template args body hb hst
 rw [←sentPath_matches,←hb,←and_imp,←and_imp,←and_imp,and_assoc,and_assoc,←hre]
 by_cases hr : reusesRawPath base (slash::body)
 · obtain ⟨hne,-,hd⟩:=id hr
   have hbs:basePath base++slash::body=base.path:=by
    rw [←joinBasePath_eq]
    exact Option.some.inj (hd.symm.trans (base.spelled hne))
   obtain rfl:=basePath_append_slash hbs
   rw [escapedPath_reused hr] at hu
   rw [joinBasePath_eq] at hd
   rw [survives_raw hu hd,splitOn_nil,and_comm]
   simp [hr]
 · rw [escapedPath_escaped hr hs] at hu
   rw [survives_escaped hu]
   simp [hr]
end

variable {M:Type} {lookupField:M → Bytes → Option (FieldInfo M)} {fullName:M → Bytes}
lemma build_url {marshal:Json → Bytes} {b:HttpClientBinding} {args:Json} {base:BaseURL}
 {sent:Option Bytes} {url:Bytes} (h:build marshal b args base=.ok (sent,url)) :
 ∃endpoint used rawQuery,expandPath b.template args=.ok (endpoint,used) ∧
  url=urlString base (joinBasePath base endpoint) rawQuery := by
 simp only [build,bind_ok,pure_ok] at h
 obtain ⟨⟨endpoint,used⟩,hp,query,-,heq⟩:=h
 exact ⟨endpoint,used,_,hp,(Prod.mk.inj heq).2.symm⟩

/-- Decoding the path of the built URL once gives the values of the path variables back exactly if
  `PathEscape` changes none of them, and the base URL's own spelling, where it is reused for a
  path that ends the base path, ends with the slash itself. -/
theorem path_values_survive_iff {marshal:Json → Bytes} {pattern body:Bytes} {request:M}
  {b:HttpClientBinding} {connect:Bool} {args:Json} {base:BaseURL} {sent:Option Bytes}
  {url:Bytes} (hbind:newHTTPClientBinding lookupField fullName pattern body request=.ok b)
  (hset:Addressed args b.template.segments)
  (hbuild:build marshal { b with connect } args base=.ok (sent,url)) : Survives base b.template args url ↔
   (∀s∈b.template.segments,s.field≠[] → ∀v,fieldValue args s=some v →
    Plain s.multi v) ∧
   (Bare b.template args → base.rawPath≠[] → validEncoded base.rawPath=true →
    base.path.getLast?=some slash → base.rawPath.getLast?=some slash) := by
 obtain ⟨endpoint,used,rawQuery,hp,rfl⟩:=build_url hbuild
 exact survives_iff hp (binding_literals hbind) hset

def greetField (_:Unit) (name:Bytes) : Option (FieldInfo Unit) :=
 if name=text "name" then some ⟨text "name",none⟩ else none

def greetBinding : HttpClientBinding where
 body:=[]
 template:={ segments:=[{ literal:=text "v1" },{ literal:=text "greet" },{ field:=text "name" }] }

lemma greetBinding_eq : newHTTPClientBinding greetField (fun _=>text "greet.v1.GreetRequest")
 (text "/v1/greet/\x7bname\x7d") [] ()=.ok greetBinding := by decide

def greetArgs (name:String) : Json:=.object [text "name"] [.string (text name)]

def greetBase : BaseURL where
 origin:=text "http://localhost:8080"
 path:=[]
 rawPath:=[]
 rooted := by decide
 spelled := by decide

lemma greet_addressed (name:String) : Addressed (greetArgs name) greetBinding.template.segments := by
 intro s hs hf
 simp only [greetBinding,mem_cons,not_mem_nil,or_false] at hs
 rcases hs with rfl|rfl|rfl
 · exact absurd rfl hf
 · exact absurd rfl hf
 · exact ⟨text name,rfl⟩

lemma greet_fieldValue {name:String} {s:PathSegment} {v:Bytes}
 (hs:s∈greetBinding.template.segments) (hf:s.field≠[])
 (hv:fieldValue (greetArgs name) s=some v) : s.multi=false ∧ v=text name := by
 simp only [greetBinding,mem_cons,not_mem_nil,or_false] at hs
 rcases hs with rfl|rfl|rfl
 · exact absurd rfl hf
 · exact absurd rfl hf
 · exact ⟨rfl,(Option.some.inj hv).symm⟩

theorem greet_ann_survives : Survives greetBase greetBinding.template (greetArgs "Ann")
  (text "http://localhost:8080/v1/greet/Ann") := by
 have hbl:build (fun _=>[]) { greetBinding with connect:=false } (greetArgs "Ann") greetBase =
   .ok (none,text "http://localhost:8080/v1/greet/Ann") := by decide
 refine (path_values_survive_iff greetBinding_eq (greet_addressed "Ann") hbl).2 ⟨?_,?_⟩
 · intro s hs hf v hv
   obtain ⟨-,rfl⟩:=greet_fieldValue hs hf hv
   have hk:(text "Ann").all keepSegment=true := by decide
   exact fun b hb=>.inl (List.all_eq_true.1 hk b hb)
 · exact fun _ hr=>absurd rfl hr

theorem greet_space_lost : newHTTPClientBinding greetField (fun _=>text "greet.v1.GreetRequest")
   (text "/v1/greet/\x7bname\x7d") [] ()=.ok greetBinding ∧
  Addressed (greetArgs "a b") greetBinding.template.segments ∧
  build (fun _=>[]) greetBinding (greetArgs "a b") greetBase =
   .ok (none,text "http://localhost:8080/v1/greet/a%2520b") ∧
  ¬Survives greetBase greetBinding.template (greetArgs "a b")
   (text "http://localhost:8080/v1/greet/a%2520b") := by
 have hb:build (fun _=>[]) greetBinding (greetArgs "a b") greetBase =
   .ok (none,text "http://localhost:8080/v1/greet/a%2520b") := by decide
 refine ⟨greetBinding_eq,greet_addressed "a b",hb,fun hs=>?_⟩
 obtain ⟨endpoint,used,rawQuery,hpt,hu⟩:=build_url hb
 rw [hu] at hs
 have hp:=((survives_iff hpt (binding_literals greetBinding_eq)
  (greet_addressed "a b")).1 hs).1
 have hn:Plain false (text "a b") :=
  hp { field:=text "name" } (by decide) (by decide) (text "a b") rfl
 have hsp:¬(keepSegment 32=true ∨ (false=true ∧ (32:UInt8)=slash)) := by decide
 exact hsp (hn 32 (by decide))
end InvariantProtocol.HttpClientPath
