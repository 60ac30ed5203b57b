import InvariantProtocol.HttpClientPath
import Mathlib.Data.List.TakeWhile
/-! Path templates: what the parsers of Go, Python and TypeScript make of a pattern, given by its UTF-8
text. They look at ASCII characters only. -/
namespace InvariantProtocol.PathTemplates
open ListRelations GoResult PercentEncoding HttpClient
open List hiding getLast head

variable {raw:Bytes} {last:Bool} {s:PathSegment} {segments:List PathSegment}

section
variable {b:UInt8} {xs:Bytes}
lemma trimByte_cons (b:UInt8) (xs:Bytes) : trimByte b (b::xs)=trimByte b xs := by
 simp [trimByte]

lemma trimByte_self (hh:xs.head?≠some b) (hl:xs.getLast?≠some b) : trimByte b xs=xs := by
 have hk:∀ys : Bytes,ys.head?≠some b → ys.dropWhile (· = b)=ys:=by
  intro ys hys
  cases ys with
  | nil=>rfl
  | cons y ys=>exact dropWhile_cons_of_neg (by simpa using hys)
 rw [trimByte,hk xs hh,hk xs.reverse (by simpa using hl),reverse_reverse]

lemma trimByte_concat (hh:xs.head?≠some b) : trimByte b (xs++[b])=trimByte b xs := by
 cases xs with
 | nil=>simp [trimByte]
 | cons x xs=>
  have hx:x≠b:=by simpa using hh
  simp [trimByte,hx]

lemma trimByte_eq_nil (h:trimByte b xs=[]) : ∀c∈xs,c=b := by
 rw [trimByte,reverse_eq_nil_iff,dropWhile_eq_nil_iff] at h
 cases hd : xs.dropWhile (· = b) with
 | nil=>simpa using List.dropWhile_eq_nil_iff.1 hd
 | cons first rest=>
  have hf:=List.head?_dropWhile_not (fun c=>decide (c=b)) xs
  have hb:=h first (by simp [hd])
  rw [hd] at hf
  simp_all

lemma head?_trimByte (b:UInt8) (xs:Bytes) : (trimByte b xs).head?≠some b := by
 intro h
 obtain ⟨rest,hr⟩:=dropWhile_suffix (fun c=>decide (c=b))
  (l := (xs.dropWhile (· = b)).reverse)
 have hf:xs.dropWhile (· = b)=trimByte b xs++rest.reverse:=by
  rw [trimByte,←reverse_append,hr,reverse_reverse]
 have hn:=List.head?_dropWhile_not (fun c=>decide (c=b)) xs
 rw [hf,List.head?_append,h] at hn
 simp at hn

lemma getLast?_trimByte (b:UInt8) (xs:Bytes) : (trimByte b xs).getLast?≠some b := by
 rw [trimByte,List.getLast?_reverse]
 intro h
 have hn:=List.head?_dropWhile_not (fun c=>decide (c=b)) (xs.dropWhile (· = b)).reverse
 simp [h] at hn
end

def braced (inner:Bytes) : Bytes:=openBrace::inner++[closeBrace]

def Wrapped (raw:Bytes) : Prop:=raw.head?=some openBrace ∧ raw.getLast?=some closeBrace

instance (raw:Bytes) : Decidable (Wrapped raw):=inferInstanceAs (Decidable (_ ∧ _))

lemma wrapped_iff : Wrapped raw ↔ ∃inner,raw=braced inner := by
 constructor
 · rintro ⟨hh,hl⟩
   cases raw with
   | nil=>cases hh
   | cons c rest=>
    obtain rfl : c=openBrace:=by simpa using hh
    cases rest using reverseRecOn with
    | nil=>simp [openBrace,closeBrace] at hl
    | append_singleton inner c => 
     obtain rfl : c=closeBrace:=by
      rw [←cons_append,List.getLast?_concat] at hl
      simpa using hl
     exact ⟨inner,rfl⟩
 · rintro ⟨inner,rfl⟩
   refine ⟨rfl,?_⟩
   rw [braced,List.getLast?_concat]

lemma inner_braced (inner:Bytes) : (braced inner).tail.dropLast=inner := by
 simp [braced]

lemma variableParts_cases (inner:Bytes) : (equalSign∉inner ∧ variableParts inner=(inner,text "*")) ∨
  ∃field wildcard,equalSign∉field ∧ inner=field++equalSign::wildcard ∧
   variableParts inner=(field,wildcard) := by
 by_cases h : equalSign∈inner
 · right
   obtain ⟨field,wildcard,rfl,hf⟩:=eq_append_cons_of_mem h
   refine ⟨field,wildcard,hf,rfl,?_⟩
   have hk:∀c∈field,decide (c≠equalSign)=true:=by
    intro c hc
    simpa using fun heq : c=equalSign=>hf (heq ▸ hc)
   rw [variableParts,if_pos h,takeWhile_append_of_pos hk,dropWhile_append_of_pos hk]
   simp
 · exact Or.inl ⟨h,if_neg h⟩

lemma parseSegment_ok :
 parseSegment last raw=.ok s ↔
  (¬Wrapped raw ∧ s={ literal:=raw }) ∨
  ∃inner,raw=braced inner ∧ (variableParts inner).1≠[] ∧
   (((variableParts inner).2=text "*" ∨ (variableParts inner).2=[]) ∧
     s={ field:=(variableParts inner).1 } ∨
    (variableParts inner).2=text "**" ∧ last=true ∧
     s={ field:=(variableParts inner).1,multi:=true }) := by
 by_cases hw : Wrapped raw
 · have hc:raw.head?=some openBrace ∧ raw.getLast?=some closeBrace:=hw
   obtain ⟨inner,rfl⟩:=wrapped_iff.1 hw
   have hi:∀inner',braced inner=braced inner' ↔ inner=inner':=by simp [braced]
   simp only [hw,not_true_eq_false,false_and,false_or,hi,exists_eq_left']
   rw [parseSegment,if_pos hc,inner_braced]
   obtain ⟨field,wildcard⟩:=variableParts inner
   dsimp only
   split_ifs with hf hs hm hl
   · simp only [hf,ne_eq,not_true_eq_false,false_and]
   · have hne:wildcard≠text "**":=by
      rintro rfl
      rcases hs with h|h <;> exact absurd h (by decide)
     simp only [ne_eq,hf,not_false_eq_true,hs,hne,true_and,false_and,or_false,Except.ok.injEq]
     exact eq_comm
   · subst hm
     simp only [ne_eq,hf,not_false_eq_true,hs,hl,true_and,false_and,false_or,Except.ok.injEq]
     exact eq_comm
   · simp only [hs,hl,false_and,and_false,or_self,Bool.false_eq_true]
   · simp only [hs,hm,false_and,and_false,or_self]
 · have hc:¬(raw.head?=some openBrace ∧ raw.getLast?=some closeBrace):=hw
   have hn:∀inner,raw≠braced inner:=fun inner h=>hw (wrapped_iff.2 ⟨inner,h⟩)
   rw [parseSegment,if_neg hc]
   simp only [hw,not_false_eq_true,true_and,hn,false_and,exists_false,or_false,Except.ok.injEq]
   exact eq_comm

section

def printSegment (s:PathSegment) : Bytes :=
 if s.field=[] then s.literal
 else braced (if s.multi then s.field++text "=**" else s.field)

/-- A template written back, with its variables spelled in the shortest way. -/
def printTemplate (t:PathTemplate) : Bytes :=
 (t.segments.flatMap fun s=>slash::printSegment s)++if t.trailingSlash then [slash] else []

/-- The spellings of a single-segment variable are one. -/
inductive Spelling : Bytes → Bytes → Prop where
 | same (raw:Bytes) : Spelling raw raw
 | star {field:Bytes} (h:equalSign∉field) :
   Spelling (braced (field++text "=*")) (braced field)
 | empty {field:Bytes} (h:equalSign∉field) :
   Spelling (braced (field++text "=")) (braced field)

variable {raw:Bytes} {raws parts:List Bytes}
lemma parseSegment_spelling (h:parseSegment last raw=.ok s) : Spelling raw (printSegment s) := by
 obtain ⟨-,rfl⟩|⟨inner,rfl,hf,hp⟩:=parseSegment_ok.1 h
 · exact .same raw
 · obtain ⟨-,heq⟩|⟨field,wildcard,hel,rfl,heq⟩:=variableParts_cases inner
   · rw [heq] at hf hp
     obtain ⟨-,rfl⟩|⟨hm,-⟩:=hp
     · rw [printSegment,if_neg hf]
       exact .same _
     · have hs:text "*" = text "**" := hm
       exact absurd hs (by decide)
   · rw [heq] at hf hp
     dsimp only at hf hp
     obtain ⟨rfl|rfl,rfl⟩|⟨rfl,-,rfl⟩:=hp
     · rw [printSegment,if_neg hf]
       exact .star hel
     · rw [printSegment,if_neg hf]
       exact .empty hel
     · rw [printSegment,if_neg hf]
       exact .same _

lemma parseSegments_each (h:parseSegments raws=.ok segments) :
 Forall₂ (fun raw s=>∃last,parseSegment last raw=.ok s) raws segments ∧
  ∀s∈segments.dropLast,s.multi=false := by
 induction raws generalizing segments with
 | nil=>
  cases h
  exact ⟨.nil,by simp⟩
 | cons raw rest ih=>
  simp only [parseSegments,bind_ok,pure_ok] at h
  obtain ⟨s,hs,segments,hsg,rfl⟩:=h
  obtain ⟨hec,hm⟩:=ih hsg
  refine ⟨.cons ⟨_,hs⟩ hec,?_⟩
  cases segments with
  | nil=>simp
  | cons next segments=>
   rw [dropLast_cons_of_ne_nil (by simp),forall_mem_cons]
   refine ⟨?_,hm⟩
   cases rest with
   | nil=>cases hsg
   | cons raw' rest=>
    obtain ⟨-,rfl⟩|⟨inner,-,-,⟨-,rfl⟩|⟨-,hl,-⟩⟩:=parseSegment_ok.1 hs
    · rfl
    · rfl
    · cases hl

variable {pattern:Bytes} {t:PathTemplate} {printed:Bytes}
lemma parsePathTemplate_ok (h:parsePathTemplate pattern=.ok t) : trimByte slash pattern=[] ∧ t={} ∨
  trimByte slash pattern≠[] ∧
   parseSegments ((trimByte slash pattern).splitOn slash)=.ok t.segments := by
 unfold parsePathTemplate at h
 split at h
 · cases h
 · split at h
   · next hem=>
     cases h
     exact Or.inl ⟨hem,rfl⟩
   · next hem=>
     simp only [bind_ok,pure_ok] at h
     obtain ⟨segments,hs,rfl⟩:=h
     exact Or.inr ⟨hem,hs⟩

lemma flatMap_slash (h:parts≠[]) :
 (parts.flatMap fun part=>slash::part)=slash::[slash].intercalate parts := by
 induction parts with
 | nil=>exact absurd rfl h
 | cons part rest ih=>
  cases rest with
  | nil=>simp
  | cons next rest=>
   rw [flatMap_cons,ih (by simp),intercalate_cons_cons]
   simp

lemma Spelling.nil_iff (h:Spelling raw printed) : raw=[] ↔ printed=[] := by
 cases h <;> simp [braced]

lemma Spelling.slash (h:Spelling raw printed) (hr:slash∉raw) : slash∉printed := by
 cases h with
 | same=>exact hr
 | star _=>
  simp only [braced,mem_cons,mem_append] at hr ⊢
  tauto
 | empty _=>
  simp only [braced,mem_cons,mem_append] at hr ⊢
  tauto

section
variable {parts:List Bytes}
lemma head?_intercalate {part:Bytes} (hp:part≠[]) (rest:List Bytes) :
 ([slash].intercalate (part::rest)).head?=part.head? := by
 cases rest with
 | nil=>simp
 | cons next rest=>
  rw [intercalate_cons_cons,List.head?_append_of_ne_nil _ (by simp),List.head?_append_of_ne_nil _ hp]

lemma intercalate_concat (part:Bytes) (h:parts≠[]) :
 [slash].intercalate (parts++[part])=[slash].intercalate parts++slash::part := by
 induction parts with
 | nil=>exact absurd rfl h
 | cons first rest ih=>
  cases rest with
  | nil=>simp
  | cons next rest=>
   rw [cons_append,cons_append,intercalate_cons_cons,intercalate_cons_cons,
    ← cons_append,ih (by simp)]
   simp

lemma head?_eq_slash (hs:∀part∈parts,slash∉part) (hne:[slash].intercalate parts≠[]) :
 ([slash].intercalate parts).head?=some slash ↔ parts.head?=some [] := by
 cases parts with
 | nil=>exact absurd rfl hne
 | cons part rest=>
  by_cases hp : part=[]
  · subst hp
    cases rest with
    | nil=>exact absurd (by simp) hne
    | cons next rest=>simp [intercalate_cons_cons]
  · rw [head?_intercalate hp]
    have hf:part.head?≠some slash:=
     fun h=>hs part mem_cons_self (List.mem_of_head? h)
    simp [hp,hf]

lemma getLast?_eq_slash (hs:∀part∈parts,slash∉part) (hne:[slash].intercalate parts≠[]) :
 ([slash].intercalate parts).getLast?=some slash ↔ parts.getLast?=some [] := by
 cases parts using reverseRecOn with
 | nil=>exact absurd rfl hne
 | append_singleton front part=>
  have hl:part.getLast?≠some slash:=
   fun h=>hs part (by simp) (List.mem_of_getLast? h)
  by_cases hf : front=[]
  · subst hf
    have hp:part≠[]:=by
     rintro rfl
     exact hne (by simp)
    simp [hp,hl]
  · rw [intercalate_concat part hf,List.getLast?_concat]
    cases part with
    | nil=>simp
    | cons b part=>
     rw [List.getLast?_append_of_ne_nil _ (by simp),List.getLast?_cons_cons]
     simpa using hl
end

lemma head?_nil_iff (h:Forall₂ Spelling raws parts) : raws.head?=some [] ↔ parts.head?=some [] := by
 cases h with
 | nil=>rfl
 | cons hf _=>simpa using hf.nil_iff

lemma printed_ends (h:Forall₂ Spelling raws parts) (hr:∀raw∈raws,slash∉raw)
 (hne:[slash].intercalate raws≠[]) (hh:([slash].intercalate raws).head?≠some slash)
 (hl:([slash].intercalate raws).getLast?≠some slash) : parts≠[] ∧ (∀part∈parts,slash∉part) ∧
  ([slash].intercalate parts).head?≠some slash ∧
  ([slash].intercalate parts).getLast?≠some slash := by
 have hp:∀part∈parts,slash∉part:=by
  intro part hpr
  obtain ⟨raw,hrw,hs⟩:=forall₂_mem_right h hpr
  exact hs.slash (hr raw hrw)
 rw [Ne,head?_eq_slash hr hne,head?_nil_iff h] at hh
 rw [Ne,getLast?_eq_slash hr hne,←List.head?_reverse,head?_nil_iff (List.forall₂_reverse_iff.2 h),
  List.head?_reverse] at hl
 cases parts with
 | nil=>
  cases h
  exact absurd rfl hne
 | cons part rest=>
  have hf:part≠[]:=by simpa using hh
  have hpt:[slash].intercalate (part::rest)≠[]:=by
   intro hnil
   have hsm:=head?_intercalate hf rest
   rw [hnil] at hsm
   exact hf (by simpa using hsm.symm)
  refine ⟨by simp,hp,?_,?_⟩
  · rw [Ne,head?_eq_slash hp hpt]
    exact hh
  · rw [Ne,getLast?_eq_slash hp hpt]
    exact hl

/-- What a successful parse has understood of its pattern. -/
theorem roundTrip (h:parsePathTemplate pattern=.ok t) :
 Forall₂ Spelling ((trimByte slash pattern).splitOn slash)
  ((trimByte slash (printTemplate t)).splitOn slash) := by
 obtain ⟨hem,rfl⟩|⟨hne,hsg⟩:=parsePathTemplate_ok h
 · rw [hem]
   exact .cons (.same []) .nil
 · obtain ⟨hec,-⟩:=parseSegments_each hsg
   have hsp:Forall₂ Spelling ((trimByte slash pattern).splitOn slash)
     (t.segments.map printSegment):=by
    rw [forall₂_map_right_iff]
    exact hec.imp fun raw s ⟨last,hs⟩=>parseSegment_spelling hs
   have hj:[slash].intercalate ((trimByte slash pattern).splitOn slash) =
     trimByte slash pattern:=intercalate_splitOn _
   have hp:=printed_ends hsp (not_mem_of_mem_splitOn _) (by rwa [hj])
    (by rw [hj];exact head?_trimByte slash pattern)
    (by rw [hj];exact getLast?_trimByte slash pattern)
   have hpr:trimByte slash (printTemplate t) =
     [slash].intercalate (t.segments.map printSegment):=by
    have hf:=flatMap_slash hp.1
    rw [flatMap_map] at hf
    rw [printTemplate,hf,cons_append,trimByte_cons]
    split
    · rw [trimByte_concat hp.2.2.1,trimByte_self hp.2.2.1 hp.2.2.2]
    · rw [append_nil,trimByte_self hp.2.2.1 hp.2.2.2]
   rw [hpr,splitOn_intercalate _ hp.2.1 hp.1]
   exact hsp
end

def BraceFree (bs:Bytes) : Prop:=openBrace∉bs ∧ closeBrace∉bs

instance (bs:Bytes) : Decidable (BraceFree bs):=inferInstanceAs (Decidable (_ ∧ _))

/-- A template that its pattern spells in full: braces are the braces of variables, a
  multi-segment variable is the last segment, and the pattern can be written back. -/
structure Understood (pattern:Bytes) (t:PathTemplate) : Prop where
 braces : ∀s∈t.segments,BraceFree s.literal ∧ BraceFree s.field
 multi : ∀s∈t.segments.dropLast,s.multi=false
 written : Forall₂ Spelling ((trimByte slash pattern).splitOn slash)
  ((trimByte slash (printTemplate t)).splitOn slash)

/-- A segment with a brace is a whole variable, and the name of its field has none. -/
def WholeVariable (raw:Bytes) : Prop :=
 BraceFree raw ∨ Wrapped raw ∧ BraceFree (variableParts raw.tail.dropLast).1

instance (raw:Bytes) : Decidable (WholeVariable raw):=inferInstanceAs (Decidable (_ ∨ _))

lemma parseSegment_braceFree (h:parseSegment last raw=.ok s) :
 BraceFree s.literal ∧ BraceFree s.field ↔ WholeVariable raw := by
 have hnil:BraceFree []:=by decide
 obtain ⟨hw,rfl⟩|⟨inner,rfl,-,hp⟩:=parseSegment_ok.1 h
 · simp [WholeVariable,hw,hnil]
 · have hw:Wrapped (braced inner):=wrapped_iff.2 ⟨inner,rfl⟩
   have hb:¬BraceFree (braced inner):=fun hf=>hf.1 (by simp [braced])
   simp only [WholeVariable,hw,hb,inner_braced,true_and,false_or]
   obtain ⟨-,rfl⟩|⟨-,-,rfl⟩:=hp
   · simp [hnil]
   · simp [hnil]

/-- The parser understands an accepted pattern exactly where no brace is left over. -/
theorem accepted_understood_iff {pattern:Bytes} {t:PathTemplate} (h:parsePathTemplate pattern=.ok t) :
  Understood pattern t ↔ ∀raw∈(trimByte slash pattern).splitOn slash,WholeVariable raw := by
 have hw:=roundTrip h
 obtain ⟨hem,rfl⟩|⟨-,hsg⟩:=parsePathTemplate_ok h
 · have hr:∀raw∈(trimByte slash pattern).splitOn slash,WholeVariable raw := by
    rw [hem]
    intro raw hr
    obtain rfl : raw=[] := by simpa using hr
    exact Or.inl (by decide)
   exact iff_of_true ⟨by simp,by simp,hw⟩ hr
 · obtain ⟨hec,hm⟩:=parseSegments_each hsg
   constructor
   · intro hu raw hr
     obtain ⟨s,hs,last,hp⟩:=forall₂_mem_left hec hr
     exact (parseSegment_braceFree hp).1 (hu.braces s hs)
   · intro hwh
     refine ⟨fun s hs=>?_,hm,hw⟩
     obtain ⟨raw,hr,last,hp⟩:=forall₂_mem_right hec hs
     exact (parseSegment_braceFree hp).2 (hwh raw hr)

def archiveTemplate : PathTemplate where
 segments:=[{ literal:=text "v1" },{ literal:=text "\x7bname\x7d:archive" }]

theorem custom_verb_not_understood : parsePathTemplate (text "/v1/\x7bname\x7d:archive")=.ok archiveTemplate ∧
   ¬Understood (text "/v1/\x7bname\x7d:archive") archiveTemplate := by
 refine ⟨by decide,fun h=>?_⟩
 have hb:=h.braces { literal:=text "\x7bname\x7d:archive" } (by simp [archiveTemplate])
 exact absurd hb.1 (by decide)

def greetTemplate : PathTemplate where
 segments:=[{ literal:=text "v1" },{ field:=text "name" }]

theorem greet_understood : Understood (text "/v1/\x7bname=*\x7d") greetTemplate :=
 (accepted_understood_iff (t := greetTemplate) (by decide)).2 (by decide)

def pythonSegment (last:Bool) (raw:Bytes) : ClientResult PathSegment :=
 if raw.head?=some openBrace ∧ raw.getLast?=some closeBrace then
  let (field,wildcard):=variableParts raw.tail.dropLast
  if field=[] then .error ⟨"empty field in variable segment",[]⟩
  else if wildcard=[] ∨ wildcard=text "*" then .ok { field }
  else if wildcard=text "**" then
   if ¬last then .error ⟨"** wildcard is only supported in the final segment",[]⟩
   else .ok { field,multi:=true }
  else .error ⟨"unsupported wildcard pattern %r",[wildcard]⟩
 else .ok { literal:=raw }

def pythonSegments : List Bytes → ClientResult (List PathSegment)
 | []=>.ok []
 | raw::rest=>do
  let segment ← pythonSegment rest.isEmpty raw
  let segments ← pythonSegments rest
  return segment::segments

/-- `_PathTemplate.parse` -/
def pythonParse (pattern:Bytes) : ClientResult PathTemplate :=
 if pattern.head?≠some slash then .error ⟨"path must start with '/'",[]⟩
 else if trimByte slash pattern=[] then .ok {}
 else do
  let segments ← pythonSegments ((trimByte slash pattern).splitOn slash)
  return { segments,trailingSlash:=1<pattern.length ∧ pattern.getLast?=some slash }

/-- The match of `/^\{([^}=]+)(?:=([^}]+))?\}$/`: the field, and the wildcard if there is one. -/
def matchVariable (part:Bytes) : Option (Bytes×Option Bytes) :=
 if part.head?=some openBrace ∧ part.getLast?=some closeBrace then
  let inner:=part.tail.dropLast
  let field:=inner.takeWhile (· ≠ equalSign)
  if field=[] ∨ closeBrace∈field then none
  else match inner.dropWhile (· ≠ equalSign) with
   | []=>some (field,none)
   | _::wildcard=>
    if wildcard=[] ∨ closeBrace∈wildcard then none else some (field,some wildcard)
 else none

def typescriptSegment (part:Bytes) : PathSegment :=
 match matchVariable part with
 | none=>{ literal:=part }
 | some (field,template)=>{ field,multi:=template.getD (text "*")=text "**" }

/-- `PathTemplate.parse` -/
def typescriptParse (pattern:Bytes) : PathTemplate where
 segments:=(((trimByte slash pattern).splitOn slash).filter (· ≠ [])).map typescriptSegment
 trailingSlash:=1<pattern.length ∧ pattern.getLast?=some slash

lemma pythonSegment_iff : pythonSegment last raw=.ok s ↔ parseSegment last raw=.ok s := by
 unfold pythonSegment parseSegment
 by_cases hw : raw.head?=some openBrace ∧ raw.getLast?=some closeBrace
 · rw [if_pos hw,if_pos hw]
   obtain ⟨field,wildcard⟩:=variableParts raw.tail.dropLast
   simp only [@or_comm (wildcard=[])]
   split_ifs <;> simp
 · rw [if_neg hw,if_neg hw]

lemma pythonSegments_iff {raws:List Bytes} :
 pythonSegments raws=.ok segments ↔ parseSegments raws=.ok segments := by
 induction raws generalizing segments with
 | nil=>rfl
 | cons raw rest ih=>
  simp only [pythonSegments,parseSegments,bind_ok,pure_ok,pythonSegment_iff,ih]

lemma pythonParse_iff {pattern:Bytes} {t:PathTemplate} :
 pythonParse pattern=.ok t ↔ parsePathTemplate pattern=.ok t := by
 unfold pythonParse parsePathTemplate
 by_cases hh : pattern.head?=some slash
 · by_cases hem : trimByte slash pattern=[]
   · simp [hh,hem]
   · simp only [hh,hem,ne_eq,not_true_eq_false,if_false,bind_ok,pure_ok,pythonSegments_iff]
 · simp [hh]

/-- A variable that the TypeScript expression matches and the Go parser accepts. -/
def VariableAgreed (last:Bool) (raw:Bytes) : Prop :=
 Wrapped raw → (variableParts raw.tail.dropLast).1≠[] ∧
  closeBrace∉(variableParts raw.tail.dropLast).1 ∧
  ((variableParts raw.tail.dropLast).2=text "*" ∨
   (variableParts raw.tail.dropLast).2=text "**" ∧ last=true)

lemma typescriptSegment_literal (h:¬Wrapped raw) : typescriptSegment raw={ literal:=raw } := by
 have hc:¬(raw.head?=some openBrace ∧ raw.getLast?=some closeBrace):=h
 rw [typescriptSegment,matchVariable,if_neg hc]

lemma typescriptSegment_braced (inner:Bytes) :
 typescriptSegment (braced inner) =
  if (variableParts inner).1=[] ∨ closeBrace∈(variableParts inner).1 ∨
    (variableParts inner).2=[] ∨ closeBrace∈(variableParts inner).2 then
   { literal:=braced inner }
  else
   { field:=(variableParts inner).1,multi:=(variableParts inner).2=text "**" } := by
 have hcn:(braced inner).head?=some openBrace ∧ (braced inner).getLast?=some closeBrace:=
  wrapped_iff.2 ⟨inner,rfl⟩
 rw [typescriptSegment,matchVariable,if_pos hcn,inner_braced]
 dsimp only
 obtain ⟨hel,hp⟩|⟨field,wildcard,hel,rfl,hp⟩:=variableParts_cases inner
 · have hs:text "*" ≠ [] ∧ closeBrace∉text "*" ∧ text "*" ≠ text "**":=by decide
   have hk:∀c∈inner,decide (c≠equalSign)=true:=by
    intro c hc
    simpa using fun heq : c=equalSign=>hel (heq ▸ hc)
   rw [hp,List.takeWhile_eq_self_iff.2 hk,List.dropWhile_eq_nil_iff.2 hk]
   simp only [hs.1,hs.2.1,or_false]
   by_cases hb : inner=[] ∨ closeBrace∈inner
   · rw [if_pos hb,if_pos hb]
   · rw [if_neg hb,if_neg hb]
     rfl
 · have hk:∀c∈field,decide (c≠equalSign)=true:=by
    intro c hc
    simpa using fun heq : c=equalSign=>hel (heq ▸ hc)
   rw [hp,takeWhile_append_of_pos hk,dropWhile_append_of_pos hk,
    takeWhile_cons_of_neg (by simp),dropWhile_cons_of_neg (by simp),append_nil]
   by_cases hb : field=[] ∨ closeBrace∈field
   · rw [if_pos hb,if_pos (by tauto)]
   · rw [if_neg hb]
     by_cases hw : wildcard=[] ∨ closeBrace∈wildcard
     · simp only [hw,if_true]
       rw [if_pos (by tauto)]
     · simp only [hw,if_false]
       rw [if_neg (by tauto)]
       rfl

lemma typescriptSegment_iff (last:Bool) (raw:Bytes) :
 parseSegment last raw=.ok (typescriptSegment raw) ↔ VariableAgreed last raw := by
 by_cases hw : Wrapped raw
 · obtain ⟨inner,rfl⟩:=wrapped_iff.1 hw
   have hi:∀inner',braced inner=braced inner' ↔ inner=inner':=by simp [braced]
   have hst:text "*" ≠ [] ∧ closeBrace∉text "*" ∧ text "**" ≠ [] ∧
     closeBrace∉text "**" ∧ text "*" ≠ text "**":=by decide
   simp only [parseSegment_ok,VariableAgreed,hw,not_true_eq_false,false_and,false_or,hi,
    exists_eq_left',inner_braced,typescriptSegment_braced,true_implies]
   obtain ⟨field,wildcard⟩:=variableParts inner
   dsimp only
   by_cases hbd : field=[] ∨ closeBrace∈field ∨ wildcard=[] ∨ closeBrace∈wildcard
   · rw [if_pos hbd]
     refine iff_of_false ?_ ?_
     · rintro ⟨hf,⟨-,heq⟩|⟨-,-,heq⟩⟩
       · exact hf (congrArg PathSegment.field heq).symm
       · exact hf (congrArg PathSegment.field heq).symm
     · rintro ⟨hf,hb,rfl|⟨rfl,-⟩⟩
       · tauto
       · tauto
   · rw [if_neg hbd]
     simp only [not_or] at hbd
     obtain ⟨hf,hb,hem,-⟩:=hbd
     constructor
     · rintro ⟨-,⟨hs,-⟩|⟨hm,hl,-⟩⟩
       · exact ⟨hf,hb,Or.inl (hs.resolve_right hem)⟩
       · exact ⟨hf,hb,Or.inr ⟨hm,hl⟩⟩
     · rintro ⟨-,-,rfl|⟨rfl,hl⟩⟩
       · refine ⟨hf,Or.inl ⟨Or.inl rfl,?_⟩⟩
         rw [decide_eq_false hst.2.2.2.2]
       · refine ⟨hf,Or.inr ⟨rfl,hl,?_⟩⟩
         rw [decide_eq_true rfl]
 · rw [typescriptSegment_literal hw,parseSegment_ok]
   simp [VariableAgreed,hw]

def SegmentsAgreed : List Bytes → Prop
 | []=>True
 | raw::rest=>raw≠[] ∧ VariableAgreed rest.isEmpty raw ∧ SegmentsAgreed rest

lemma typescriptSegments_iff (raws:List Bytes) :
 parseSegments raws=.ok ((raws.filter (· ≠ [])).map typescriptSegment) ↔
  SegmentsAgreed raws := by
 induction raws with
 | nil=>simp [parseSegments,SegmentsAgreed]
 | cons raw rest ih=>
  simp only [parseSegments,bind_ok,pure_ok,SegmentsAgreed]
  by_cases hr : raw=[]
  · -- The Go parser keeps the empty segment, so its list is the longer one.
    subst hr
    refine iff_of_false ?_ fun h=>h.1 rfl
    rintro ⟨s,-,segments,hsg,heq⟩
    rw [filter_cons_of_neg (by simp)] at heq
    have hl:=(parseSegments_each hsg).1.length_eq
    have hsh:=congrArg List.length heq
    have hf:=length_filter_le (· ≠ []) rest
    simp only [length_cons,length_map] at hsh
    omega
  · rw [filter_cons_of_pos (by simpa using hr),map_cons]
    simp only [List.cons.injEq,←ih,←typescriptSegment_iff]
    constructor
    · rintro ⟨s,hs,segments,hsg,rfl,rfl⟩
      exact ⟨hr,hs,hsg⟩
    · rintro ⟨-,hs,hsg⟩
      exact ⟨_,hs,_,hsg,rfl,rfl⟩

/-- A pattern without empty segments whose variables the three parsers read alike. -/
def PatternAgreed (pattern:Bytes) : Prop :=
 pattern.head?=some slash ∧ (pattern=[slash] ∨
  trimByte slash pattern≠[] ∧ SegmentsAgreed ((trimByte slash pattern).splitOn slash))

lemma parsePathTemplate_typescript (pattern:Bytes) :
 parsePathTemplate pattern=.ok (typescriptParse pattern) ↔ PatternAgreed pattern := by
 unfold parsePathTemplate PatternAgreed
 by_cases hh : pattern.head?=some slash
 · by_cases hem : trimByte slash pattern=[]
   · simp only [hh,hem,ne_eq,not_true_eq_false,if_false,if_true,false_and,or_false,true_and,
      Except.ok.injEq]
     have ha:=trimByte_eq_nil hem
     constructor
     · intro heq
       have ht:=congrArg PathTemplate.trailingSlash heq
       cases pattern with
       | nil=>cases hh
       | cons c rest=>
        obtain rfl : c=slash:=by simpa using hh
        cases rest using reverseRecOn with
        | nil=>rfl
        | append_singleton rest c=>
         obtain rfl : c=slash:=ha c (by simp)
         have hl:(slash::(rest++[slash])).getLast?=some slash:=by
          rw [←cons_append,List.getLast?_concat]
         simp [typescriptParse,hl] at ht
     · rintro rfl
       decide
   · simp only [hh,hem,ne_eq,not_true_eq_false,if_false,not_false_eq_true,true_and,bind_ok,
      pure_ok,←typescriptSegments_iff]
     have hne:pattern≠[slash]:=by
      rintro rfl
      exact hem (by decide)
     simp only [hne,false_or]
     constructor
     · rintro ⟨segments,hs,heq⟩
       have hls:=congrArg PathTemplate.segments heq
       rw [hs]
       exact congrArg Except.ok hls
     · intro hs
       exact ⟨_,hs,rfl⟩
 · simp [hh]

/-- The three parsers agree on a pattern: all reject it, or all make the same template of it. -/
theorem parsers_agree_iff (pattern:Bytes) :
  (parsePathTemplate pattern).toOption=(pythonParse pattern).toOption ∧
    (pythonParse pattern).toOption=some (typescriptParse pattern) ↔ PatternAgreed pattern := by
 have ho:∀(x:ClientResult PathTemplate) (t:PathTemplate),
   x.toOption=some t ↔ x=.ok t := by
  intro x t
  cases x <;> simp [Except.toOption]
 have hs:(parsePathTemplate pattern).toOption=(pythonParse pattern).toOption := by
  ext t
  rw [ho,ho,pythonParse_iff]
 rw [ho,pythonParse_iff,parsePathTemplate_typescript]
 exact and_iff_right hs

theorem relative_pattern_not_agreed : (pythonParse (text "v1/users")).toOption=none ∧
   ¬((parsePathTemplate (text "v1/users")).toOption=(pythonParse (text "v1/users")).toOption ∧
    (pythonParse (text "v1/users")).toOption=some (typescriptParse (text "v1/users"))) := by
 have hn:(pythonParse (text "v1/users")).toOption=none := by decide
 exact ⟨hn,by simp [hn]⟩
end InvariantProtocol.PathTemplates
