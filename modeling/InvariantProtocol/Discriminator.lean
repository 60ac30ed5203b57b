import Mathlib.Data.List.Pairwise
import Mathlib.Data.Int.Notation
import Mathlib.Tactic.Common
/-! Groups of alternatives with a discriminator, which equals the number of a member exactly when the
member is present. -/
namespace InvariantProtocol.Discriminator

variable {α γ:Type} [DecidableEq γ] (group:α → γ) (number:α → ℕ) (present:α → Bool)
def selected (g:γ) (members:List α) : ℕ :=
 ((members.find? fun x=>group x=g ∧ present x=true).map number).getD 0

def Exclusive (members:List α) : Prop :=
 members.Pairwise fun x y=>group x=group y → ¬(present x=true ∧ present y=true)

structure Numbered (members:List α) : Prop where
 pos : ∀x∈members,number x≠0
 distinct : members.Pairwise fun x y=>group x=group y → number x≠number y

lemma selected_cases (g:γ) (members:List α) : (selected group number present g members=0 ∧
  ∀x∈members,group x=g → present x=false) ∨
 ∃x∈members,group x=g ∧ present x=true ∧
  selected group number present g members=number x := by
 unfold selected
 cases hf : members.find? fun x=>group x=g ∧ present x=true with
 | none=>
  refine .inl ⟨rfl,fun x hx hg=>?_⟩
  have hn:=List.find?_eq_none.1 hf x hx
  simpa [hg] using hn
 | some x=>
  have hx:=List.find?_some hf
  simp only [decide_eq_true_eq] at hx
  exact .inr ⟨x,List.mem_of_find?_eq_some hf,hx.1,hx.2,rfl⟩

section
omit [DecidableEq γ]

variable {group number present} {members:List α} {x y:α}
lemma Numbered.eq (h:Numbered group number members) (hx:x∈members) (hy:y∈members)
 (hg:group x=group y) (hn:number x=number y) : x=y := by
 by_contra hne
 have hs:Std.Symm fun x y=>group x=group y → number x≠number y:=
  ⟨fun a b hab hg hn=>hab hg.symm hn.symm⟩
 exact h.distinct.forall hx hy hne hg hn

lemma Exclusive.eq (h:Exclusive group present members) (hx:x∈members) (hy:y∈members)
 (hg:group x=group y) (hpx:present x=true) (hpy:present y=true) : x=y := by
 by_contra hne
 have hs:Std.Symm fun x y=>group x=group y → ¬(present x=true ∧ present y=true):=
  ⟨fun a b hab hg hb=>hab hg.symm hb.symm⟩
 exact h.forall hx hy hne hg ⟨hpx,hpy⟩
end

/-- The discriminator is among the numbers of its group, and equals a member's number exactly
when the member is present. -/
def Agrees (k:γ → ℤ) (members:List α) : Prop :=
 ∀x∈members,(k (group x)=0 ∨ ∃y∈members,group y=group x ∧ k (group x)=number y) ∧
  (k (group x)=number x ↔ present x=true)

variable {group number present} {members:List α}
lemma agrees_iff (hn:Numbered group number members) (k:γ → ℤ) :
 Agrees group number present k members ↔
  (∀x∈members,k (group x)=selected group number present (group x) members) ∧
   Exclusive group present members := by
 constructor
 · intro h
   refine ⟨fun x hx=>?_,?_⟩
   · rcases selected_cases group number present (group x) members with
      ⟨hz,ha⟩ | ⟨y,hy,hg,hp,hnm⟩
     · -- Nothing is present, so no member's number is left for the discriminator.
       rw [hz]
       rcases (h x hx).1 with hk|⟨y,hy,hg,hk⟩
       · exact_mod_cast hk
       · have hp:=(h y hy).2.1 (by rw [hg,hk])
         rw [ha y hy hg] at hp
         cases hp
     · rw [hnm,←hg]
       exact (h y hy).2.2 hp
   · refine hn.distinct.imp_of_mem fun {x y} hx hy hd hg hb=>?_
     have hkx:=(h x hx).2.2 hb.1
     have hky:=(h y hy).2.2 hb.2
     rw [←hg,hkx] at hky
     exact hd hg (by exact_mod_cast hky)
 · rintro ⟨hs,hex⟩ x hx
   rw [hs x hx]
   rcases selected_cases group number present (group x) members with
    ⟨hz,ha⟩ | ⟨y,hy,hg,hp,hnm⟩
   · rw [hz,ha x hx rfl]
     refine ⟨.inl rfl,?_⟩
     have hps:=hn.pos x hx
     simp only [Bool.false_eq_true,iff_false]
     omega
   · rw [hnm]
     refine ⟨.inr ⟨y,hy,hg,rfl⟩,fun hk=>?_,fun hpx=>?_⟩
     · obtain rfl:=hn.eq hy hx hg (by exact_mod_cast hk)
       exact hp
     · obtain rfl:=hex.eq hy hx hg hp hpx
       rfl
end InvariantProtocol.Discriminator
