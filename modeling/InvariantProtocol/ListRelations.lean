import Mathlib.Data.List.Basic
import Mathlib.Data.List.Forall2
import Mathlib.Data.Nat.Init
import Mathlib.Data.List.SplitBy
import Mathlib.Tactic.Tauto
/-! Lists related entry by entry, the fallible maps that relate them, and the pieces of a list
between its separators. -/
namespace InvariantProtocol.ListRelations
open List

variable {α β:Type} {R S:α → β → Prop} {xs:List α} {ys:List β}
lemma forall₂_mem_right (h:Forall₂ R xs ys) {y:β} (hy:y∈ys) : ∃x∈xs,R x y := by
 induction h with
 | nil=>simp at hy
 | cons hr _ ih=>
  obtain rfl|hy:=List.mem_cons.1 hy
  · exact ⟨_,mem_cons_self,hr⟩
  · obtain ⟨x,hx,hxy⟩:=ih hy
    exact ⟨x,mem_cons_of_mem _ hx,hxy⟩

lemma forall₂_mem_left (h:Forall₂ R xs ys) {x:α} (hx:x∈xs) : ∃y∈ys,R x y :=
 forall₂_mem_right h.flip hx

lemma forall₂_imp_of_mem (h:Forall₂ R xs ys) (hi:∀x∈xs,∀y,R x y → S x y) : Forall₂ S xs ys := by
 induction h with
 | nil=>exact .nil
 | cons hr _ ih=>
  rw [forall_mem_cons] at hi
  exact .cons (hi.1 _ hr) (ih hi.2)

lemma forall₂_getLast? (h:Forall₂ R xs ys) {y:β} (hy:ys.getLast?=some y) :
 ∃x,xs.getLast?=some x ∧ R x y := by
 induction h with
 | nil=>cases hy
 | @cons x y' xs ys hr hrs ih=>
  cases hrs with
  | nil=>exact ⟨x,rfl,Option.some.inj hy ▸ hr⟩
  | cons _ _=>
   obtain ⟨x',hx',hr'⟩:=ih (by simpa using hy)
   exact ⟨x',by simpa using hx',hr'⟩

lemma forall₂_append_iff {xs':List α} {ys':List β} (hl:xs.length=ys.length) :
 Forall₂ R (xs++xs') (ys++ys') ↔ Forall₂ R xs ys ∧ Forall₂ R xs' ys' := by
 induction xs generalizing ys with
 | nil=>
  obtain rfl:=List.length_eq_zero_iff.1 hl.symm
  simp
 | cons x xs ih=>
  cases ys with
  | nil=>simp at hl
  | cons y ys=>simp [ih (by simpa using hl),and_assoc]

lemma exists_forall₂ : (∃ys,Forall₂ R xs ys) ↔ ∀x∈xs,∃y,R x y := by
 constructor
 · rintro ⟨ys,h⟩ x hx
   obtain ⟨y,-,hxy⟩:=forall₂_mem_left h hx
   exact ⟨y,hxy⟩
 · intro h
   induction xs with
   | nil=>exact ⟨[],.nil⟩
   | cons x xs ih=>
    rw [forall_mem_cons] at h
    obtain ⟨y,hy⟩:=h.1
    obtain ⟨ys,hys⟩:=ih h.2
    exact ⟨y::ys,.cons hy hys⟩

lemma mapM_eq_some {f:α → Option β} : xs.mapM f=some ys ↔ Forall₂ (fun x y=>f x=some y) xs ys := by
 induction xs generalizing ys with
 | nil=>simp [eq_comm]
 | cons x xs ih=>
  simp only [mapM_cons,Option.bind_eq_bind,Option.bind_eq_some_iff,Option.pure_def,
   Option.some.injEq,ih,forall₂_cons_left_iff]
  constructor
  · rintro ⟨y,hy,ys,hys,rfl⟩
    exact ⟨y,ys,hy,hys,rfl⟩
  · rintro ⟨y,ys,hy,hys,rfl⟩
    exact ⟨y,hy,ys,hys,rfl⟩

variable {a:α}
lemma mem_of_lookup [BEq α] [LawfulBEq α] {pairs:List (α×β)} {b:β} (h:pairs.lookup a=some b) :
 (a,b)∈pairs := by
 obtain ⟨before,after,rfl,-⟩:=lookup_eq_some_iff.1 h
 simp

/-- A list is cut at the separators from left to right. -/
theorem splitOn_induction {P:List α → Prop} (single:∀xs,a∉xs → P xs)
 (cut:∀xs ys,a∉xs → P ys → P (xs++a::ys)) (xs:List α) : P xs := by
 induction hn : xs.length using Nat.strong_induction_on generalizing xs with
 | _ n ih=>
  by_cases hm : a∈xs
  · obtain ⟨front,rest,rfl,hf⟩:=eq_append_cons_of_mem hm
    refine cut front rest hf (ih rest.length ?_ rest rfl)
    simp only [length_append,length_cons] at hn
    omega
  · exact single xs hm

variable [BEq α] [LawfulBEq α]
lemma not_mem_of_mem_splitOn (xs:List α) : ∀piece∈xs.splitOn a,a∉piece := by
 induction xs using splitOn_induction (a := a) with
 | single xs h=>simpa [splitOn_eq_singleton h] using h
 | cut xs ys hxs ih=>
  rw [splitOn_append_cons_self,splitOn_eq_singleton hxs,forall_mem_append]
  exact ⟨by simpa using hxs,ih⟩

lemma mem_splitOn {b:α} (xs:List α) : (∃piece∈xs.splitOn a,b∈piece) ↔ b∈xs ∧ b≠a := by
 induction xs using splitOn_induction (a := a) with
 | single xs h=>
  simp only [splitOn_eq_singleton h,mem_singleton,exists_eq_left]
  exact ⟨fun hb=>⟨hb,fun heq=>h (heq ▸ hb)⟩,And.left⟩
 | cut xs ys hxs ih=>
  rw [splitOn_append_cons_self,splitOn_eq_singleton hxs]
  simp only [mem_append,or_and_right,exists_or,exists_eq_left,ih,mem_cons]
  have hne:b∈xs → b≠a:=fun hb heq=>hxs (heq ▸ hb)
  tauto
end InvariantProtocol.ListRelations
