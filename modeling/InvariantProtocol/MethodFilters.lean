import InvariantProtocol.ByteText
import InvariantProtocol.ListRelations
import InvariantProtocol.MessageClasses
import InvariantProtocol.ProtoDescriptor
import InvariantProtocol.StarPattern
/-! The include and exclude filters. Go and Rust match the bytes of the patterns, Python the code
points, TypeScript the UTF-16 code units. -/
namespace InvariantProtocol.MethodFilters
open ByteText GoText ListRelations MessageClasses ProtoDescriptor StarPattern
open List hiding Cursor any_congr

/-- The variables `INVARIANT_INCLUDE` and `INVARIANT_EXCLUDE`; one that is not set is empty. -/
structure Environment where
 includePatterns : List Char:=[]
 excludePatterns : List Char:=[]

def splitPatterns (space:Char → Bool) (value:List Char) : List (List Char) :=
 ((value.splitOn ',').map (trimWith space)).filter (· ≠ [])

def fullPath (service method:String) : List Char:=(service++"."++method).toList

/-- Included by one of the first patterns, if there are any, and by none of the second excluded. -/
def selects (glob:List Char → Bool) (includes excludes:List (List Char)) : Bool :=
 if includes≠[] ∧ includes.any glob=false then false else !excludes.any glob

namespace Go

def globMatch : Bytes → Bytes → Bool
 | [],s=>s.isEmpty
 | c::pattern,s=>
  if c=42 then
   if pattern=[] then true else s.tails.any (globMatch pattern)
  else
   match s with
   | []=>false
   | b::s=>if c≠b then false else globMatch pattern s

def shouldIncludeLocked (env:Environment) (includes excludes:List (List Char))
  (serviceFullName methodName:String) : Bool :=
 let path:=utf8 (fullPath serviceFullName methodName)
 selects (fun pattern=>globMatch (utf8 pattern) path)
  (includes++splitPatterns isSpace env.includePatterns)
  (excludes++splitPatterns isSpace env.excludePatterns)
end Go

namespace Rust

structure Position where
 patternIndex : ℕ
 candidateIndex : ℕ
 star : Option ℕ
 retryCandidate : ℕ

def step (pattern candidate:Bytes) (at_:Position) : Bool ⊕ Position :=
 if at_.candidateIndex<candidate.length then
  if at_.patternIndex<pattern.length ∧
    pattern[at_.patternIndex]?=candidate[at_.candidateIndex]? then
   .inr { at_ with
    patternIndex:=at_.patternIndex+1
    candidateIndex:=at_.candidateIndex+1 }
  else if at_.patternIndex<pattern.length ∧ pattern[at_.patternIndex]?=some 42 then
   .inr { at_ with
    star:=some at_.patternIndex
    patternIndex:=at_.patternIndex+1
    retryCandidate:=at_.candidateIndex }
  else
   match at_.star with
   | some starIndex=>
    .inr { at_ with
     patternIndex:=starIndex+1
     retryCandidate:=at_.retryCandidate+1
     candidateIndex:=at_.retryCandidate+1 }
   | none=>.inl false
 else .inl ((pattern.drop at_.patternIndex).dropWhile (· = 42)).isEmpty

/-- `none` is a loop that has not ended within its budget. -/
def globMatches (pattern candidate:Bytes) : Option Bool :=
 loop (step pattern candidate) (budget pattern candidate) ⟨0,0,none,0⟩
end Rust

namespace Python

/-- What `fnmatch.translate` makes of a pattern; a set is kept by the text between its brackets. -/
inductive Part where
 | star
 | question
 | set (stuff:List Char)
 | char (c:Char)

/-- The text of the set that a bracket opens, and how far behind the bracket it ends. -/
def bracket (text:List Char) : Option (List Char×ℕ) :=
 let negation:=if text.head?=some '!' then ['!'] else []
 let first:=if (text.drop negation.length).head?=some ']' then [']'] else []
 let rest:=text.drop (negation.length+first.length)
 if ']' ∈ rest then
  let stuff:=negation++first++rest.takeWhile (· ≠ ']')
  some (stuff,stuff.length+1)
 else none

def translate : ℕ → List Char → List Part
 | _,[]=>[]
 | skip+1,_::pattern=>translate skip pattern
 | 0,c::pattern=>
  if c = '*' then .star::translate 0 pattern
  else if c = '?' then .question::translate 0 pattern
  else if c = '[' then
   match bracket pattern with
   | some (stuff,skip)=>.set stuff::translate skip pattern
   | none=>.char '[' :: translate 0 pattern
  else .char c::translate 0 pattern

/-- The whole text is matched; `inSet` says which characters the text of a set stands for. -/
def matchParts (inSet:List Char → Char → Bool) : List Part → List Char → Bool
 | [],s=>s.isEmpty
 | .star::parts,s=>s.tails.any (matchParts inSet parts)
 | .question::parts,s=>!s.isEmpty && matchParts inSet parts s.tail
 | .set stuff::parts,s=>s.head?.any (inSet stuff) && matchParts inSet parts s.tail
 | .char c::parts,s=>s.head?=some c && matchParts inSet parts s.tail

def isSpaceText (c:Char) : Bool :=
 isSpace c || (0x1C≤c.toNat && c.toNat≤0x1F)

def globMatch (inSet:List Char → Char → Bool) (pattern s:List Char) : Bool :=
 matchParts inSet (translate 0 pattern) s

def shouldInclude (inSet:List Char → Char → Bool) (env:Environment)
  (includes excludes:List (List Char)) (serviceFullName methodName:String) : Bool :=
 selects (fun pattern=>globMatch inSet pattern (fullPath serviceFullName methodName))
  (includes++splitPatterns isSpaceText env.includePatterns)
  (excludes++splitPatterns isSpaceText env.excludePatterns)
end Python

namespace TypeScript

def utf16 (c:Char) : List ℕ :=
 if c.toNat<0x10000 then [c.toNat]
 else [0xD800+(c.toNat-0x10000) / 0x400,0xDC00+(c.toNat-0x10000) % 0x400]

def units (s:List Char) : List ℕ:=s.flatMap utf16

/-- The terms of the regular expression. A star is written `.*`; of the characters that are special
in a regular expression only the question mark is not escaped. -/
inductive Term where
 | unit (u:ℕ)
 | optional (u:ℕ)
 | run

/-- What a question mark would apply to. -/
inductive Last where
 | nothing
 | unit (u:ℕ)
 | quantified (term:Term)

def Last.term : Last → List Term
 | .nothing=>[]
 | .unit u=>[.unit u]
 | .quantified term=>[term]

/-- `none` is the `SyntaxError` of a question mark with nothing to repeat. A question mark after a
quantifier makes it lazy, which changes no test. -/
def parse : Last → List ℕ → Option (List Term)
 | last,[]=>some last.term
 | last,u::us=>
  if u=63 then
   match last with
   | .nothing=>none
   | .unit v=>parse (.quantified (.optional v)) us
   | .quantified term=>(parse .nothing us).map (term :: ·)
  else if u=42 then (parse (.quantified .run) us).map (last.term ++ ·)
  else (parse (.unit u) us).map (last.term ++ ·)

def lineTerminator (u:ℕ) : Bool:=u∈[0x0A,0x0D,0x2028,0x2029]

def test : List Term → List ℕ → Bool
 | [],s=>s.isEmpty
 | .unit u::terms,s=>s.head?=some u && test terms s.tail
 | .optional u::terms,s=>(s.head?=some u && test terms s.tail) || test terms s
 | .run::terms,s=>
  (s.tails.take ((s.takeWhile fun u=>!lineTerminator u).length+1)).any (test terms)

def globMatch (pattern value:List Char) : Option Bool :=
 (parse .nothing (units pattern)).map fun terms=>test terms (units value)

/-- `none` is an exception; a pattern behind one that decides is not looked at. -/
def selects (glob:List Char → Option Bool) (includes excludes:List (List Char)) : Option Bool :=
 (includes.anyM glob).bind fun included=>
  if includes≠[] ∧ included=false then some false
  else (excludes.anyM glob).map (!·)

def shouldInclude (env:Environment) (includes excludes:List (List Char))
  (serviceFullName methodName:String) : Option Bool :=
 selects (fun pattern=>globMatch pattern (fullPath serviceFullName methodName))
  (includes++splitPatterns typescriptSpace env.includePatterns)
  (excludes++splitPatterns typescriptSpace env.excludePatterns)
end TypeScript

lemma go_matches (pattern s:Bytes) : Go.globMatch pattern s=true ↔ Matches 42 pattern s := by
 induction pattern generalizing s with
 | nil=>rw [Go.globMatch,List.isEmpty_iff,matches_nil]
 | cons c pattern ih=>
  by_cases hc : c=42
  · subst hc
    rw [matches_star,Go.globMatch.eq_def]
    by_cases hp : pattern=[]
    · subst hp
      simp [matches_nil,nil_suffix]
    · simp [hp,ih,mem_tails]
  · rw [matches_symbol hc,Go.globMatch.eq_def]
    cases s with
    | nil=>simp [hc]
    | cons b s=>
     by_cases hb : c=b
     · subst hb
       simp [hc,ih]
     · simp [hc,hb,Ne.symm hb]

def cursor (pattern candidate:Bytes) (at_:Rust.Position) : Cursor UInt8 where
 pattern:=pattern.drop at_.patternIndex
 word:=candidate.drop at_.candidateIndex
 retry:=at_.star.map fun i=>(pattern.drop (i+1),candidate.drop at_.retryCandidate)

lemma cursor_step (pattern candidate:Bytes) (at_:Rust.Position) :
 advance 42 (cursor pattern candidate at_) =
  (Rust.step pattern candidate at_).map id (cursor pattern candidate) := by
 obtain ⟨i,j,star,retry⟩:=at_
 by_cases hj : j<candidate.length
 · have hw:candidate.drop j=candidate[j]::candidate.drop (j+1):=
    drop_eq_getElem_cons hj
   have hh:(pattern.drop i).head?=pattern[i]?:=List.head?_drop
   have ht:(pattern.drop i).tail=pattern.drop (i+1):=tail_drop
   have hlt:∀b,pattern[i]?=some b → i<pattern.length:=
    fun b h=>(List.getElem?_eq_some_iff.1 h).1
   simp only [cursor,hw,advance,hh,ht,Rust.step,hj,List.getElem?_eq_getElem hj,if_true]
   by_cases hb : pattern[i]?=some candidate[j]
   · rw [if_pos hb,if_pos ⟨hlt _ hb,hb⟩]
     rfl
   · have hb':¬ (i<pattern.length ∧ pattern[i]?=some candidate[j]):=fun h=>hb h.2
     rw [if_neg hb,if_neg hb']
     by_cases hs : pattern[i]?=some 42
     · rw [if_pos hs,if_pos ⟨hlt _ hs,hs⟩,Sum.map_inr]
       simp only [cursor,hw,Option.map_some]
     · have hs':¬ (i<pattern.length ∧ pattern[i]?=some 42):=fun h=>hs h.2
       rw [if_neg hs,if_neg hs']
       cases star with
       | none=>rfl
       | some k=>simp [cursor]
 · have hw:candidate.drop j=[]:=drop_eq_nil_of_le (by omega)
   simp only [cursor,hw,advance,Rust.step,hj,if_false,Sum.map_inl,id_eq,Sum.inl.injEq]
   rw [Bool.eq_iff_iff,all_eq_true,List.isEmpty_iff,dropWhile_eq_nil_iff]

lemma rust_matches {pattern candidate:Bytes} (h:42∉candidate) :
 Rust.globMatches pattern candidate=some (Go.globMatch pattern candidate) := by
 obtain ⟨b,hb,hi⟩:=@loop_advance_start _ 42 pattern candidate _ h
 have hv:=@loop_map _ _ _ (Rust.step pattern candidate) (budget pattern candidate)
  ⟨0,0,none,0⟩ _ (cursor pattern candidate) (cursor_step pattern candidate)
 rw [Rust.globMatches,←hv]
 refine hb.trans (congrArg some ?_)
 rw [Bool.eq_iff_iff,hi,go_matches]

/-- Go matches exactly the fillings of the stars, and Rust as Go. -/
theorem glob_meaning (pattern candidate:Bytes) :
  (Go.globMatch pattern candidate=true ↔ ∃fill,candidate=expand 42 fill pattern) ∧
   (42∉candidate →
    Rust.globMatches pattern candidate=some (Go.globMatch pattern candidate)) :=
 ⟨(go_matches pattern candidate).trans matches_iff_expand,rust_matches⟩

section

def pathChar (c:Char) : Bool:=c = '.' || isLetterOrDigit c

variable {c:Char}
lemma pathChar_of_nameIsValid {name:String} (h:nameIsValid name=true) (hc:c∈name.toList) :
 pathChar c=true := by
 unfold nameIsValid at h
 split at h
 · simp at h
 · rename_i d ds heq
   rw [heq] at hc
   simp only [Bool.and_eq_true,all_eq_true] at h
   obtain rfl|hc:=List.mem_cons.1 hc
   · simp [pathChar,isLetterOrDigit,h.1]
   · simp [pathChar,h.2 c hc]

lemma pathChar_of_fullNameIsValid {name:String} (h:fullNameIsValid name=true)
 (hc:c∈name.toList) : pathChar c=true := by
 by_cases hd : c = '.'
 · simp [pathChar,hd]
 · obtain ⟨piece,hp,hm⟩:=(mem_splitOn name.toList).2 ⟨hc,hd⟩
   have hv:=List.all_eq_true.1 h (String.ofList piece) (mem_map_of_mem hp)
   exact pathChar_of_nameIsValid hv (by simpa using hm)

lemma pathChar_of_fullPath {service method:String} (hs:fullNameIsValid service=true)
 (hm:nameIsValid method=true) : ∀c∈fullPath service method,pathChar c=true := by
 intro c hc
 simp only [fullPath,String.toList_append,mem_append] at hc
 obtain (hc|hc)|hc:=hc
 · exact pathChar_of_fullNameIsValid hs hc
 · have hd:c = '.':=by simpa using hc
   simp [pathChar,hd]
 · exact pathChar_of_nameIsValid hm hc

lemma toNat_of_pathChar (h:pathChar c=true) :
 c.toNat=46 ∨ c.toNat=95 ∨ (65≤c.toNat ∧ c.toNat≤90) ∨ (97≤c.toNat ∧ c.toNat≤122) ∨
  (48≤c.toNat ∧ c.toNat≤57) := by
 have hu : 'A'.val.toNat=65 ∧ 'Z'.val.toNat=90:=⟨rfl,rfl⟩
 have hl : 'a'.val.toNat=97 ∧ 'z'.val.toNat=122:=⟨rfl,rfl⟩
 have hd : '0'.val.toNat=48 ∧ '9'.val.toNat=57:=⟨rfl,rfl⟩
 have hv:c.toNat=c.val.toNat:=rfl
 have ha:c.isAlpha=(decide (c.val ≥ 'A'.val ∧ c.val ≤ 'Z'.val) ||
   decide (c.val ≥ 'a'.val) && decide (c.val ≤ 'z'.val)):=rfl
 simp only [pathChar,isLetterOrDigit,isLetter,ha,Char.isDigit,Bool.or_eq_true,Bool.and_eq_true,
  decide_eq_true_eq,ge_iff_le,UInt32.le_iff_toNat_le] at h
 obtain rfl|(rfl|h|h)|h:=h
 · exact .inl rfl
 · exact .inr (.inl rfl)
 · omega
 · omega
 · omega

lemma ne_of_pathChar {d:Char} (h:pathChar c=true) (hd:pathChar d=false) : c≠d := by
 rintro rfl
 rw [hd] at h
 cases h
end

variable (inSet:List Char → Char → Bool)
/-- A pattern without the characters that only some runtimes treat as special. -/
def Plain (pattern:List Char) : Prop := '?' ∉ pattern ∧ '[' ∉ pattern

variable {inSet} {pattern s:List Char} {c:Char} {f:List Char → Bool}
lemma ascii_of_pathChar (h:pathChar c=true) : c.toNat<128 := by
 have hr:=toNat_of_pathChar h
 omega

lemma encodeChar_ascii (h:c.toNat<128) : String.utf8EncodeChar c=[UInt8.ofNat c.toNat] := by
 have hv:c.val.toNat≤127:=Nat.lt_succ_iff.1 h
 simp only [String.utf8EncodeChar,if_pos hv]
 rfl

lemma encodeChar_not_ascii (h:¬ c.toNat<128) {b:UInt8} (hb:b∈String.utf8EncodeChar c) : 128≤b.toNat := by
 by_contra hlt
 have heq:=toNat_of_mem_encodeChar hb (by omega)
 omega

lemma matches_utf8 (hs:∀c∈s,pathChar c=true) :
 Matches 42 (utf8 pattern) (utf8 s) ↔ Matches '*' pattern s := by
 have hw:utf8 s=s.map fun c=>UInt8.ofNat c.toNat:=by
  rw [utf8,←flatMap_pure_eq_map]
  exact flatMap_congr fun c hc=>encodeChar_ascii (ascii_of_pathChar (hs c hc))
 have hby:∀c : Char,c.toNat<128 → (UInt8.ofNat c.toNat).toNat=c.toNat:=by
  intro c hc
  rw [UInt8.toNat_ofNat']
  omega
 rw [hw]
 refine matches_encode String.utf8EncodeChar _ (fun c=>c.toNat<128 ∧ c ≠ '*') rfl ?_ ?_ ?_ ?_
 · intro c ⟨hc,hne⟩
   refine ⟨encodeChar_ascii hc,hne,fun heq=>hne ?_⟩
   have hn:=hby c hc
   rw [heq] at hn
   exact Char.toNat_inj.1 hn.symm
 · intro c d ⟨hc,_⟩ ⟨hd,_⟩ heq
   have hn:=congrArg UInt8.toNat heq
   rw [hby c hc,hby d hd] at hn
   exact Char.toNat_inj.1 hn
 · intro c hne ho
   have hc:¬ c.toNat<128:=fun hc=>ho ⟨hc,hne⟩
   cases hcd : String.utf8EncodeChar c with
   | nil=>exact absurd hcd (encodeChar_ne_nil c)
   | cons b bs=>
    have hb:128≤b.toNat:=encodeChar_not_ascii hc (hcd ▸ mem_cons_self)
    refine ⟨b,bs,rfl,?_,?_⟩
    · rintro rfl
      exact absurd hb (by decide)
    · rintro d ⟨hd,-⟩ rfl
      rw [hby d hd] at hb
      omega
 · intro c hc
   exact ⟨ascii_of_pathChar (hs c hc),ne_of_pathChar (hs c hc) (by decide)⟩

lemma go_matches_chars (hs:∀c∈s,pathChar c=true) :
 Go.globMatch (utf8 pattern) (utf8 s)=true ↔ Matches '*' pattern s :=
 (go_matches _ _).trans (matches_utf8 hs)

lemma translate_plain (hp:Plain pattern) : Python.translate 0 pattern =
  pattern.map fun c=>if c = '*' then .star else .char c := by
 induction pattern with
 | nil=>rfl
 | cons c pattern ih=>
  simp only [Plain,mem_cons,not_or] at hp
  rw [Python.translate,ih ⟨hp.1.2,hp.2.2⟩,map_cons]
  by_cases hc : c = '*'
  · simp [hc]
  · simp [hc,Ne.symm hp.1.1,Ne.symm hp.2.1]

lemma python_matches (hp:Plain pattern) :
 Python.globMatch inSet pattern s=true ↔ Matches '*' pattern s := by
 rw [Python.globMatch,translate_plain hp]
 clear hp
 induction pattern generalizing s with
 | nil=>rw [matches_nil,map_nil,Python.matchParts,List.isEmpty_iff]
 | cons c pattern ih=>
  by_cases hc : c = '*'
  · subst hc
    simp [Python.matchParts,matches_star,ih,mem_tails]
  · cases s with
    | nil=>simp [Python.matchParts,matches_symbol hc,hc]
    | cons d s=>
     simp only [map_cons,if_neg hc,Python.matchParts,List.head?_cons,tail_cons,
      Bool.and_eq_true,decide_eq_true_eq,Option.some.injEq,ih,matches_symbol hc,List.cons.injEq,
      and_assoc,exists_and_left,exists_eq_left']

lemma parse_plain {us:List ℕ} (h:63∉us) (last:TypeScript.Last) : TypeScript.parse last us =
  some (last.term++us.map fun u=>if u=42 then .run else .unit u) := by
 induction us generalizing last with
 | nil=>simp [TypeScript.parse]
 | cons u us ih=>
  rw [mem_cons,not_or] at h
  by_cases hu : u=42
  · subst hu
    simp [TypeScript.parse,ih h.2,TypeScript.Last.term]
  · simp [TypeScript.parse,ih h.2,TypeScript.Last.term,hu,Ne.symm h.1]

lemma test_plain {us ns:List ℕ} (hns:∀n∈ns,TypeScript.lineTerminator n=false) :
 TypeScript.test (us.map fun u=>if u=42 then .run else .unit u) ns=true ↔
  Matches 42 us ns := by
 induction us generalizing ns with
 | nil=>rw [matches_nil,map_nil,TypeScript.test,List.isEmpty_iff]
 | cons u us ih=>
  by_cases hu : u=42
  · subst hu
    have ha:ns.takeWhile (fun n=>!TypeScript.lineTerminator n)=ns:=
     List.takeWhile_eq_self_iff.2 fun n hn=>by simp [hns n hn]
    have htl:ns.tails.take (ns.length+1)=ns.tails:=
     take_of_length_le (by rw [length_tails])
    rw [map_cons,if_pos rfl,TypeScript.test,ha,htl,matches_star,any_eq_true]
    refine exists_congr fun t=>?_
    rw [mem_tails]
    exact and_congr_right fun ht=>ih fun n hn=>hns n (ht.mem hn)
  · cases ns with
    | nil=>simp [TypeScript.test,matches_symbol hu,hu]
    | cons n ns=>
     rw [forall_mem_cons] at hns
     simp only [map_cons,if_neg hu,TypeScript.test,List.head?_cons,tail_cons,Bool.and_eq_true,
      decide_eq_true_eq,Option.some.injEq,ih hns.2,matches_symbol hu,List.cons.injEq,and_assoc,
      exists_and_left,exists_eq_left']

lemma toNat_of_mem_utf16 {u:ℕ} (h:u∈TypeScript.utf16 c) (hu:u<128) : c.toNat=u := by
 unfold TypeScript.utf16 at h
 split_ifs at h with hc
 · exact (List.mem_singleton.1 h).symm
 · simp only [mem_cons,not_mem_nil,or_false] at h
   omega

lemma matches_units (hs:∀c∈s,pathChar c=true) :
 Matches 42 (TypeScript.units pattern) (TypeScript.units s) ↔ Matches '*' pattern s := by
 have hsn:∀c : Char,c.toNat<128 → TypeScript.utf16 c=[c.toNat]:=
  fun c hc=>if_pos (by omega)
 have hw:TypeScript.units s=s.map Char.toNat:=by
  rw [TypeScript.units,←flatMap_pure_eq_map]
  exact flatMap_congr fun c hc=>hsn c (ascii_of_pathChar (hs c hc))
 rw [hw]
 refine matches_encode TypeScript.utf16 _ (fun c=>c.toNat<128 ∧ c ≠ '*') rfl ?_ ?_ ?_ ?_
 · intro c ⟨hc,hne⟩
   exact ⟨hsn c hc,hne,fun heq=>hne (Char.toNat_inj.1 heq)⟩
 · intro c d _ _ heq
   exact Char.toNat_inj.1 heq
 · intro c hne ho
   have hc:¬ c.toNat<128:=fun hc=>ho ⟨hc,hne⟩
   cases hcd : TypeScript.utf16 c with
   | nil=>
    unfold TypeScript.utf16 at hcd
    split_ifs at hcd
   | cons u us=>
    have hu:¬ u<128:=by
     intro hu
     have heq:=toNat_of_mem_utf16 (hcd ▸ mem_cons_self) hu
     omega
    refine ⟨u,us,rfl,by omega,fun d hd=>?_⟩
    have hlt:=hd.1
    omega
 · intro c hc
   exact ⟨ascii_of_pathChar (hs c hc),ne_of_pathChar (hs c hc) (by decide)⟩

lemma typescript_matches (hp:Plain pattern) (hs:∀c∈s,pathChar c=true) :
 ∃b,TypeScript.globMatch pattern s=some b ∧ (b=true ↔ Matches '*' pattern s) := by
 have hq:63∉TypeScript.units pattern:=by
  intro hm
  obtain ⟨c,hc,hu⟩:=List.mem_flatMap.1 hm
  have heq:c = '?' := Char.toNat_inj.1 (toNat_of_mem_utf16 hu (by decide))
  exact hp.1 (heq ▸ hc)
 have hl:∀n∈TypeScript.units s,TypeScript.lineTerminator n=false:=by
  intro n hn
  obtain ⟨c,hc,hu⟩:=List.mem_flatMap.1 hn
  have hr:=toNat_of_pathChar (hs c hc)
  have hsn:TypeScript.utf16 c=[c.toNat]:=if_pos (by omega)
  rw [hsn,mem_singleton] at hu
  simp only [TypeScript.lineTerminator,mem_cons,not_mem_nil,or_false,decide_eq_false_iff_not]
  omega
 refine ⟨_,by rw [TypeScript.globMatch,parse_plain hq,Option.map_some],?_⟩
 rw [TypeScript.Last.term,nil_append,test_plain hl]
 exact matches_units hs

variable {g:List Char → Option Bool} {patterns:List (List Char)}
lemma anyM_eq (h:∀p∈patterns,g p=some (f p)) : patterns.anyM g=some (patterns.any f) := by
 induction patterns with
 | nil=>rfl
 | cons p patterns ih=>
  rw [forall_mem_cons] at h
  rw [anyM,h.1,any_cons,ih h.2]
  cases f p <;> rfl

lemma any_congr {g:List Char → Bool} (h:∀p∈patterns,f p=g p) :
 patterns.any f=patterns.any g := by
 induction patterns with
 | nil=>rfl
 | cons p patterns ih=>
  rw [forall_mem_cons] at h
  rw [any_cons,any_cons,h.1,ih h.2]

lemma splitPatterns_nil (space:Char → Bool) : splitPatterns space []=[] := rfl

variable {includes excludes:List (List Char)} {service method:String}
lemma selects_congr {g:List Char → Bool} (h:∀p∈includes++excludes,f p=g p) :
 selects f includes excludes=selects g includes excludes := by
 rw [forall_mem_append] at h
 rw [selects,selects,any_congr h.1,any_congr h.2]

lemma go_unset : Go.shouldIncludeLocked {} includes excludes service method =
 selects (fun p=>Go.globMatch (utf8 p) (utf8 (fullPath service method))) includes excludes := by
 simp only [Go.shouldIncludeLocked,splitPatterns_nil,append_nil]

lemma python_unset : Python.shouldInclude inSet {} includes excludes service method =
 selects (fun p=>Python.globMatch inSet p (fullPath service method)) includes excludes := by
 simp only [Python.shouldInclude,splitPatterns_nil,append_nil]

lemma typescript_unset : TypeScript.shouldInclude {} includes excludes service method =
 TypeScript.selects (fun p=>TypeScript.globMatch p (fullPath service method)) includes excludes := by
 simp only [TypeScript.shouldInclude,splitPatterns_nil,append_nil]

lemma selectsM_eq (h:∀p∈includes++excludes,g p=some (f p)) :
 TypeScript.selects g includes excludes=some (selects f includes excludes) := by
 rw [forall_mem_append] at h
 rw [TypeScript.selects,selects,anyM_eq h.1,anyM_eq h.2,Option.bind_some,Option.map_some]
 split_ifs <;> rfl

end InvariantProtocol.MethodFilters
