import Mathlib.Data.List.SplitBy
import Mathlib.Data.List.TakeWhile
/-! Removal of dot segments from a path, in the way of RFC 3986 and of the URL implementations that
follow it. -/
namespace InvariantProtocol.DotSegments
open List hiding tail

inductive DotKind where
 | plain
 | here
 | up
 deriving DecidableEq

/-- `closing` is the segment left by a dot segment at the end of the path, if it leaves one. -/
structure Normalizer (α:Type) where
 kind : α → DotKind
 closing : Option α

variable {α:Type} (n:Normalizer α)
def Normalizer.push (out:List α) (s:α) : List α :=
 match n.kind s with
 | .plain=>out++[s]
 | .here=>out
 | .up=>out.dropLast

def Normalizer.stack (out:List α) (segments:List α) : List α:=segments.foldl n.push out

def Normalizer.normalize (segments:List α) : List α :=
 match segments.getLast? with
 | some last=>
  if n.kind last=.plain then n.stack [] segments
  else n.stack [] segments++n.closing.toList
 | none=>[]

variable {n}
lemma stack_append (out front back:List α) :
 n.stack out (front++back)=n.stack (n.stack out front) back := foldl_append

lemma stack_plain {segments:List α} (h:∀s∈segments,n.kind s=.plain) (out:List α) :
 n.stack out segments=out++segments := by
 induction segments generalizing out with
 | nil=>simp [Normalizer.stack]
 | cons s segments ih=>
  have hs:n.push out s=out++[s]:=by rw [Normalizer.push,h s mem_cons_self]
  have hr:=ih (fun t ht=>h t (mem_cons_of_mem s ht)) (out++[s])
  calc n.stack out (s::segments)=n.stack (out++[s]) segments:=by
        rw [Normalizer.stack,foldl_cons,hs]
        rfl
   _=out++s::segments:=by rw [hr,append_assoc];rfl

lemma length_push_le (out:List α) (s:α) : (n.push out s).length≤out.length+1 := by
 unfold Normalizer.push
 cases n.kind s with
 | plain=>simp
 | here=>simp
 | up=>
  rw [length_dropLast]
  omega

lemma length_stack_le (segments out:List α) :
 (n.stack out segments).length≤out.length+segments.length := by
 induction segments generalizing out with
 | nil=>simp [Normalizer.stack]
 | cons s segments ih=>
  have hp:=@length_push_le _ n out s
  have hr:=ih (n.push out s)
  simp only [Normalizer.stack,foldl_cons,length_cons] at hr ⊢
  omega

lemma length_stack_lt {segments:List α} (h:∃s∈segments,n.kind s≠.plain) (out:List α) :
 (n.stack out segments).length<out.length+segments.length := by
 induction segments generalizing out with
 | nil=>simp at h
 | cons s segments ih=>
  by_cases hs : n.kind s=.plain
  · have hr:∃t∈segments,n.kind t≠.plain:=by
     obtain ⟨t,ht,hk⟩:=h
     rcases List.mem_cons.mp ht with rfl|ht
     · exact absurd hs hk
     · exact ⟨t,ht,hk⟩
    have hl:=ih hr (n.push out s)
    have hp:=@length_push_le _ n out s
    simp only [Normalizer.stack,foldl_cons,length_cons] at hl ⊢
    omega
  · have hp:(n.push out s).length≤out.length:=by
     unfold Normalizer.push
     cases hk : n.kind s with
     | plain=>exact absurd hk hs
     | here=>simp
     | up=>simp
    have hl:=@length_stack_le _ n segments (n.push out s)
    simp only [Normalizer.stack,foldl_cons,length_cons] at hl ⊢
    omega

lemma normalize_concat (front:List α) (last:α) : n.normalize (front++[last]) =
  if n.kind last=.plain then n.stack [] (front++[last])
  else n.stack [] (front++[last])++n.closing.toList := by
 rw [Normalizer.normalize,List.getLast?_concat]

lemma normalize_plain {base segments:List α} (hne:segments≠[]) (h:∀s∈segments,n.kind s=.plain) :
 n.normalize (base++segments)=n.stack [] base++segments := by
 obtain ⟨front,last,rfl⟩:=eq_nil_or_concat segments |>.resolve_left hne
 have hl:n.kind last=.plain:=h last (by simp)
 rw [concat_eq_append,←append_assoc,normalize_concat,if_pos hl,append_assoc,
  stack_append,←concat_eq_append,stack_plain h]

lemma length_normalize_le {base segments:List α} (hne:segments≠[]) :
 (n.normalize (base++segments)).length≤(n.stack [] base).length+segments.length := by
 obtain ⟨front,last,rfl⟩:=eq_nil_or_concat segments |>.resolve_left hne
 rw [concat_eq_append,←append_assoc,normalize_concat,append_assoc,stack_append]
 by_cases hl : n.kind last=.plain
 · rw [if_pos hl]
   exact length_stack_le _ _
 · rw [if_neg hl,length_append]
   have hs:=@length_stack_lt _ n (front++[last]) ⟨last,by simp,hl⟩ (n.stack [] base)
   have hc:n.closing.toList.length≤1:=by cases n.closing <;> simp
   omega

/-- If the number of segments is kept then no segment is a dot segment, except for one at the end in
  whose place the closing segment stands. -/
theorem plain_of_length {base segments rest:List α} (hne:segments≠[])
 (h:n.normalize (base++segments)=n.stack [] base++rest) (hl:rest.length=segments.length) :
 (∀s∈segments,n.kind s=.plain) ∨
 ∃last,segments.getLast?=some last ∧ n.kind last≠.plain ∧ rest.getLast?=n.closing := by
 by_cases hp : ∀s∈segments,n.kind s=.plain
 · exact .inl hp
 right
 have hd:∃s∈segments,n.kind s≠.plain:=by simpa using hp
 clear hp
 obtain ⟨front,last,rfl⟩:=eq_nil_or_concat segments |>.resolve_left hne
 rw [concat_eq_append] at hd h hl ⊢
 have hst:=length_stack_lt hd (n.stack [] base)
 rw [←append_assoc,normalize_concat,append_assoc,stack_append] at h
 by_cases hls : n.kind last=.plain
 · rw [if_pos hls] at h
   rw [h,length_append] at hst
   omega
 · rw [if_neg hls] at h
   refine ⟨last,by simp,hls,?_⟩
   have hs:=congrArg List.length h
   rw [length_append,length_append] at hs
   cases hc : n.closing with
   | none=>
    rw [hc] at hs
    simp only [Option.toList_none,length_nil] at hs
    omega
   | some closing=>
    rw [hc] at h
    have hr:rest≠[]:=by
     rintro rfl
     simp at hl
    have hen:=congrArg List.getLast? h
    rw [List.getLast?_append_of_ne_nil _ (by simp),List.getLast?_append_of_ne_nil _ hr] at hen
    simpa using hen.symm

variable {β:Type} {sep:β} {keep:β → Bool} {tail:List β}
lemma takeWhile_append_of_forall {part:List β} (h:∀b∈part,keep b=true) (rest:List β) :
 (part++rest).takeWhile keep=part++rest.takeWhile keep := by
 rw [takeWhile_append,if_pos]
 rw [List.takeWhile_eq_self_iff.mpr h]

lemma takeWhile_append_of_exists {part:List β} (h:¬∀b∈part,keep b=true) (rest:List β) :
 (part++rest).takeWhile keep=part.takeWhile keep ∧ part.takeWhile keep≠part := by
 have hc:part.takeWhile keep≠part:=mt List.takeWhile_eq_self_iff.mp h
 refine ⟨?_,hc⟩
 rw [takeWhile_append,if_neg]
 exact fun hl=>hc (( takeWhile_prefix keep).eq_of_length hl)

lemma splitOn_single [DecidableEq β] {part:List β} (h:sep∉part) : (part.takeWhile keep).splitOn sep =
 [part.takeWhile keep] :=
 splitOn_eq_singleton fun hm=>h (( takeWhile_prefix keep).subset hm)

/-- The segments of a joined path whose text ends at the first delimiter: all of them, or those up
  to the delimiter. -/
theorem splitOn_takeWhile [DecidableEq β] (hsp:keep sep=true) (ht:tail.takeWhile keep=[])
 {parts:List (List β)} (hne:parts≠[]) (hp:∀part∈parts,sep∉part) : (∀part∈parts,∀b∈part,keep b=true) ∧
  (([sep].intercalate parts++tail).takeWhile keep).splitOn sep=parts ∨
 ∃front part back,parts=front++part::back ∧ part.takeWhile keep≠part ∧
  (([sep].intercalate parts++tail).takeWhile keep).splitOn sep=front++[part.takeWhile keep] := by
 induction parts with
 | nil=>exact absurd rfl hne
 | cons part rest ih=>
  have hpr:=hp part mem_cons_self
  by_cases hk : ∀b∈part,keep b=true
  · cases rest with
    | nil=>
     refine .inl ⟨by simpa using hk,?_⟩
     rw [intercalate_singleton,takeWhile_append_of_forall hk,ht,append_nil,
      splitOn_eq_singleton hpr]
    | cons next rest=>
     have hst:(([sep].intercalate (part::next::rest)++tail).takeWhile keep).splitOn sep =
       part::(([sep].intercalate (next::rest)++tail).takeWhile keep).splitOn sep:=by
      rw [intercalate_cons_cons,append_assoc,append_assoc,singleton_append,
       takeWhile_append_of_forall hk,takeWhile_cons_of_pos hsp,splitOn_append_cons_self,
       splitOn_eq_singleton hpr]
      rfl
     rw [hst]
     rcases ih (by simp) fun part hmm=>hp part (mem_cons_of_mem _ hmm) with
      ⟨ha,hs⟩ | ⟨front,cut,back,heq,hc,hs⟩
     · exact .inl ⟨by simpa using ⟨hk,by simpa using ha⟩,by rw [hs]⟩
     · exact .inr ⟨part::front,cut,back,by rw [heq];rfl,hc,by rw [hs];rfl⟩
  · refine .inr ⟨[],part,rest,rfl,(takeWhile_append_of_exists hk []).2,?_⟩
    have htx:∃more,[sep].intercalate (part::rest)++tail=part++more:=by
     cases rest with
     | nil=>exact ⟨tail,by simp⟩
     | cons next rest=>exact ⟨_,by rw [intercalate_cons_cons,append_assoc,append_assoc]⟩
    obtain ⟨more,hm⟩:=htx
    rw [hm,(takeWhile_append_of_exists hk more).1,splitOn_single hpr]
    rfl
end InvariantProtocol.DotSegments
