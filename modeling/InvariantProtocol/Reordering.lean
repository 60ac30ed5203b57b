import InvariantProtocol.GoResult
import Mathlib.Data.List.Perm.Basic
import Mathlib.Data.List.Flatten
import Mathlib.Data.List.Sort
/-! Lists and trees that differ in the order of their parts, and results that differ at most in
their errors. -/
namespace InvariantProtocol.Reordering
open List ListRelations GoResult

section
variable {α β γ δ:Type}
/-- Each element of one list is related to its own element of the other, wherever that stands. -/
def ReorderedBy (R:α → β → Prop) (xs:List α) (zs:List β) : Prop :=
 ∃ys,Forall₂ R xs ys ∧ ys.Perm zs

variable {R:α → β → Prop} {S:γ → δ → Prop} {xs xs':List α} {zs zs':List β}
lemma ReorderedBy.nil : ReorderedBy R [] [] := ⟨[],.nil,.nil⟩

lemma ReorderedBy.cons {x:α} {z:β} (hx:R x z) (h:ReorderedBy R xs zs) : ReorderedBy R (x::xs) (z::zs) := by
 obtain ⟨ys,hys,hp⟩:=h
 exact ⟨z::ys,.cons hx hys,hp.cons z⟩

section
variable (h:ReorderedBy R xs zs)
include h
lemma ReorderedBy.append (h':ReorderedBy R xs' zs') :
 ReorderedBy R (xs++xs') (zs++zs') := by
 obtain ⟨ys,hys,hp⟩:=h
 obtain ⟨ys',hy',hp'⟩:=h'
 exact ⟨ys++ys',rel_append hys hy',hp.append hp'⟩

lemma ReorderedBy.perm (hp:zs.Perm zs') : ReorderedBy R xs zs' := by
 obtain ⟨ys,hys,hzs⟩:=h
 exact ⟨ys,hys,hzs.trans hp⟩

lemma ReorderedBy.length : xs.length=zs.length := by
 obtain ⟨ys,hys,hp⟩:=h
 rw [hys.length_eq,hp.length_eq]

lemma ReorderedBy.imp {R':α → β → Prop} (hR:∀x z,x∈xs → R x z → R' x z) :
 ReorderedBy R' xs zs := by
 obtain ⟨ys,hys,hp⟩:=h
 refine ⟨ys,?_,hp⟩
 clear hp
 induction hys with
 | nil=>exact .nil
 | cons hx _ ih=>
  exact .cons (hR _ _ mem_cons_self hx) (ih fun x z hx=>hR x z (mem_cons_of_mem _ hx))
end

lemma reorderedBy_eq_iff {xs zs:List α} : ReorderedBy Eq xs zs ↔ xs.Perm zs := by
 rw [ReorderedBy,forall₂_eq_eq_eq]
 simp

lemma ReorderedBy.forall_iff {P:α → Prop} {Q:β → Prop} (h:ReorderedBy R xs zs)
 (hPQ:∀x z,R x z → (P x ↔ Q z)) : (∀x∈xs,P x) ↔ ∀z∈zs,Q z := by
 obtain ⟨ys,hys,hp⟩:=h
 have hf:(∀x∈xs,P x) ↔ ∀y∈ys,Q y:=by
  clear hp
  induction hys with
  | nil=>simp
  | cons hx _ ih=>rw [forall_mem_cons,forall_mem_cons,hPQ _ _ hx,ih]
 rw [hf]
 exact ⟨fun h z hz=>h z (hp.mem_iff.2 hz),fun h y hy=>h y (hp.mem_iff.1 hy)⟩

variable {f:α → γ}
section
variable (h:ReorderedBy R xs zs)
include h
lemma ReorderedBy.map_perm {g:β → γ} (hfg:∀x z,R x z → f x=g z) :
 (xs.map f).Perm (zs.map g) := by
 obtain ⟨ys,hys,hp⟩:=h
 have hm:xs.map f=ys.map g:=by
  clear hp
  induction hys with
  | nil=>rfl
  | cons hx _ ih=>rw [map_cons,map_cons,hfg _ _ hx,ih]
 rw [hm]
 exact hp.map g

lemma ReorderedBy.map {g:β → δ} (hfg:∀x z,R x z → S (f x) (g z)) :
 ReorderedBy S (xs.map f) (zs.map g) := by
 obtain ⟨ys,hys,hp⟩:=h
 refine ⟨ys.map g,?_,hp.map g⟩
 rw [forall₂_map_left_iff,forall₂_map_right_iff]
 exact hys.imp hfg

lemma ReorderedBy.flatMap {f:α → List γ} {g:β → List δ}
 (hfg:∀x z,x∈xs → R x z → ReorderedBy S (f x) (g z)) : ReorderedBy S (xs.flatMap f) (zs.flatMap g) := by
 obtain ⟨ys,hys,hp⟩:=h
 refine ReorderedBy.perm ?_ (hp.flatMap_right g)
 clear hp
 induction hys with
 | nil=>exact .nil
 | cons hx _ ih=>
  rw [flatMap_cons,flatMap_cons]
  exact (hfg _ _ mem_cons_self hx).append
   (ih fun x z hx=>hfg x z (mem_cons_of_mem _ hx))

lemma ReorderedBy.mem_left {x:α} (hx:x∈xs) : ∃z∈zs,R x z := by
 obtain ⟨ys,hys,hp⟩:=h
 obtain ⟨y,hy,hR⟩:=forall₂_mem_left hys hx
 exact ⟨y,hp.mem_iff.1 hy,hR⟩

lemma ReorderedBy.mem_right {z:β} (hz:z∈zs) : ∃x∈xs,R x z := by
 obtain ⟨ys,hys,hp⟩:=h
 exact forall₂_mem_right hys (hp.mem_iff.2 hz)
end

lemma map_eq_map_iff_forall₂ {g:β → γ} {ys:List β} :
 xs.map f=ys.map g ↔ Forall₂ (fun x y=>f x=g y) xs ys := by
 rw [←forall₂_eq_eq_eq,forall₂_map_left_iff,forall₂_map_right_iff]

variable {key:α → γ}
lemma find?_eq_some_of_nodup [DecidableEq γ] (h:(xs.map key).Nodup) (x:α) (k:γ) :
 xs.find? (key · = k)=some x ↔ x∈xs ∧ key x=k := by
 induction xs with
 | nil=>simp
 | cons y xs ih=>
  rw [map_cons,nodup_cons] at h
  by_cases hy : key y=k
  · rw [List.find?_cons_of_pos (by simpa using hy)]
    constructor
    · intro hx
      obtain rfl:=Option.some.inj hx
      exact ⟨mem_cons_self,hy⟩
    · rintro ⟨hx,hk⟩
      obtain rfl|hx:=List.mem_cons.1 hx
      · rfl
      · exact absurd (List.mem_map.2 ⟨x,hx,hk.trans hy.symm⟩) h.1
  · rw [List.find?_cons_of_neg (by simpa using hy),ih h.2]
    constructor
    · rintro ⟨hx,hk⟩
      exact ⟨mem_cons_of_mem _ hx,hk⟩
    · rintro ⟨hx,hk⟩
      obtain rfl|hx:=List.mem_cons.1 hx
      · exact absurd hk hy
      · exact ⟨hx,hk⟩

lemma ReorderedBy.find? [DecidableEq γ] {key':β → γ} (h:ReorderedBy R xs zs)
 (hky:∀x z,R x z → key x=key' z) (hd:(xs.map key).Nodup) (k:γ) :
 Option.Rel R (xs.find? (key · = k)) (zs.find? (key' · = k)) := by
 have hd':(zs.map key').Nodup:=(h.map_perm hky).nodup_iff.1 hd
 cases hx : xs.find? (key · = k) with
 | some x=>
  obtain ⟨hm,hk⟩:=(find?_eq_some_of_nodup hd x k).1 hx
  obtain ⟨z,hz,hR⟩:=h.mem_left hm
  rw [(find?_eq_some_of_nodup hd' z k).2 ⟨hz,(hky x z hR).symm.trans hk⟩]
  exact .some hR
 | none=>
  have hz:zs.find? (key' · = k)=none:=by
   rw [List.find?_eq_none] at hx ⊢
   intro z hz
   obtain ⟨x,hm,hR⟩:=h.mem_right hz
   have hne:=hx x hm
   rwa [hky x z hR] at hne
  rw [hz]
  exact .none

lemma optionRel_cases {x:Option α} {z:Option β} (h:Option.Rel R x z) :
 (x=none ∧ z=none) ∨ ∃a b,x=some a ∧ z=some b ∧ R a b := by
 cases h with
 | some hR=>exact .inr ⟨_,_,rfl,rfl,hR⟩
 | none=>exact .inl ⟨rfl,rfl⟩
end

/-- Sorting forgets the order, when elements that are level are equal. -/
theorem insertionSort_eq_of_perm {α:Type} {le:α → α → Prop} [DecidableRel le] [Std.Total le]
 [IsTrans α le] {xs ys:List α} (h:xs.Perm ys) (ha:∀x∈xs,∀y∈xs,le x y → le y x → x=y) :
 xs.insertionSort le=ys.insertionSort le := by
 refine List.Perm.eq_of_pairwise (fun x y hx hy=>?_) (pairwise_insertionSort le xs)
  (pairwise_insertionSort le ys)
  ((perm_insertionSort le xs).trans (h.trans (perm_insertionSort le ys).symm))
 exact ha x ((mem_insertionSort le).1 hx) y
  (h.mem_iff.2 ((mem_insertionSort le).1 hy))

/-! ### Trees -/

inductive Tree (α:Type) where
 | node (value:α) (children:List (Tree α))

namespace Tree

variable {α β:Type}
def value : Tree α → α
 | .node value _=>value

def children : Tree α → List (Tree α)
 | .node _ children=>children

lemma sizeOf_child {t u:Tree α} (h:u∈t.children) : sizeOf u<sizeOf t := by
 cases t with
 | node a ts=>
  have hlt:sizeOf u<sizeOf ts:=sizeOf_lt_of_mem h
  rw [node.sizeOf_spec]
  omega

lemma tree_induction {P:Tree α → Prop}
 (hnode:∀value children,(∀t∈children,P t) → P (.node value children)) (t:Tree α) : P t := by
 induction hs : sizeOf t using Nat.strongRecOn generalizing t with
 | ind n ih=>
  cases t with
  | node value children=>
   refine hnode value children fun u hu=>ih (sizeOf u) ?_ u rfl
   rw [←hs]
   exact sizeOf_child hu

mutual

def values : Tree α → List α
 | .node value children=>value::forestValues children

def forestValues : List (Tree α) → List α
 | []=>[]
 | t::rest=>t.values++forestValues rest
end

lemma forestValues_eq (ts:List (Tree α)) : forestValues ts=ts.flatMap values := by
 induction ts with
 | nil=>rfl
 | cons t rest ih=>rw [forestValues,ih,flatMap_cons]

mutual

/-- The trees have related values and, at every node, the same children up to order. -/
def Reordered (R:α → β → Prop) : Tree α → Tree β → Prop
 | .node a xs,.node b zs=>R a b ∧ ∃ys,Paired R xs ys ∧ ys.Perm zs

def Paired (R:α → β → Prop) : List (Tree α) → List (Tree β) → Prop
 | [],ys=>ys=[]
 | x::xs,ys=>∃y rest,ys=y::rest ∧ Reordered R x y ∧ Paired R xs rest
end

variable {R:α → β → Prop}
variable {xs:List (Tree α)}
lemma paired_iff {ys:List (Tree β)} : Paired R xs ys ↔ Forall₂ (Reordered R) xs ys := by
 induction xs generalizing ys with
 | nil=>rw [Paired,forall₂_nil_left_iff]
 | cons x xs ih=>
  rw [Paired,forall₂_cons_left_iff]
  constructor
  · rintro ⟨y,rest,rfl,hx,hr⟩
    exact ⟨y,rest,hx,ih.1 hr,rfl⟩
  · rintro ⟨y,rest,hx,hr,rfl⟩
    exact ⟨y,rest,rfl,hx,ih.2 hr⟩

lemma reordered_node {a:α} {b:β} {zs:List (Tree β)} :
 Reordered R (.node a xs) (.node b zs) ↔ R a b ∧ ReorderedBy (Reordered R) xs zs := by
 rw [Reordered]
 simp only [paired_iff]
 rfl

lemma Reordered.values {t:Tree α} : ∀{u:Tree β},Reordered R t u → ReorderedBy R t.values u.values := by
 induction t using tree_induction with
 | hnode a xs ih=>
  rintro ⟨b,zs⟩ h
  obtain ⟨hab,hc⟩:=reordered_node.1 h
  rw [Tree.values,Tree.values,forestValues_eq,forestValues_eq]
  exact .cons hab (hc.flatMap fun x z hx hxz=>ih x hx hxz)
end Tree

/-! ### Results -/

/-- Both calls fail, or both succeed with related values. -/
def Agree {ε ε' α β:Type} (R:α → β → Prop) : Except ε α → Except ε' β → Prop
 | .ok a,.ok b=>R a b
 | .error _,.error _=>True
 | _,_=>False

variable {ε ε' α β γ δ:Type} {R:α → β → Prop} {S:γ → δ → Prop}
@[simp] lemma agree_error {e:ε} {e':ε'} :
 Agree R (.error e : Except ε α) (.error e' : Except ε' β) := trivial

variable {x:Except ε α} {y:Except ε' β}
lemma Agree.bind {f:α → Except ε γ} {g:β → Except ε' δ} (h:Agree R x y)
 (hfg:∀a b,R a b → Agree S (f a) (g b)) : Agree S (x >>= f) (y >>= g) := by
 cases x with
 | ok a=>cases y with
  | ok b=>exact hfg a b h
  | error e' => exact h.elim
 | error e=>cases y with
  | ok b=>exact h.elim
  | error e' => trivial

lemma Agree.mono {R':α → β → Prop} (h:Agree R x y) (hR:∀a b,R a b → R' a b) : Agree R' x y := by
 cases x with
 | ok a=>cases y with
  | ok b=>exact hR a b h
  | error e' => exact h.elim
 | error e=>cases y with
  | ok b=>exact h.elim
  | error e' => trivial

lemma agree_refl : Agree Eq x x := by
 cases x with
 | ok a=>rfl
 | error e=>trivial

lemma Agree.wrap {x:Result α} {y:Result β} (h:Agree R x y) {format format':String}
 {args args':List FormatArg} : Agree R (wrap format args x) (wrap format' args' y) := by
 cases x with
 | ok a=>cases y with
  | ok b=>exact h
  | error e' => exact h.elim
 | error e=>cases y with
  | ok b=>exact h.elim
  | error e' => trivial

lemma agree_rejectIf {p q:Prop} [Decidable p] [Decidable q] (h:p ↔ q) {e e':GoError} :
 Agree Eq (rejectIf p e) (rejectIf q e') := by
 unfold rejectIf
 by_cases hp : p
 · rw [if_pos hp,if_pos (h.1 hp)]
   trivial
 · rw [if_neg hp,if_neg fun hq=>hp (h.2 hq)]
   rfl

lemma Agree.loop {σ τ ι:Type} {R:σ → τ → Prop} {f:σ → ι → Result σ} {g:τ → ι → Result τ}
 (h:∀s t i,R s t → Agree R (f s i) (g t i)) {s:σ} {t:τ} (hst:R s t) (is:List ι) :
 Agree R (loop f s is) (loop g t is) := by
 induction is generalizing s t with
 | nil=>exact hst
 | cons i is ih=>exact (h s t i hst).bind fun s t hst=>ih hst

lemma agree_iff {y:Except ε' α} : Agree Eq x y ↔ ∀a,x=.ok a ↔ y=.ok a := by
 cases x with
 | ok a=>cases y with
  | ok b=>simp [Agree]
  | error e=>simp [Agree]
 | error e=>cases y with
  | ok b=>simp [Agree]
  | error e' => simp [Agree]

lemma agree_unit_iff {x:Except ε Unit} {y:Except ε' Unit} : Agree Eq x y ↔ (x=.ok () ↔ y=.ok ()) := by
 rw [agree_iff]
 exact ⟨fun h=>h (),fun h _=>h⟩
end InvariantProtocol.Reordering
