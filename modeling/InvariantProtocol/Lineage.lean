import Mathlib.Data.List.Basic
import Mathlib.Data.List.Pairwise
namespace InvariantProtocol.Lineage

variable {ι σ:Type}
inductive Run (step:ι → Option σ → σ → Prop) : Option σ → List (ι×σ) → Prop where
 | nil (previous:Option σ) : Run step previous []
 | cons {i:ι} {previous:Option σ} {s:σ} {rest:List (ι×σ)} (head:step i previous s)
   (tail:Run step (some s) rest) : Run step previous ((i,s)::rest)

def results (steps:List (ι×σ)) : List σ:=steps.map Prod.snd

variable {step:ι → Option σ → σ → Prop} {previous:Option σ} {steps:List (ι×σ)}
lemma Run.forall_results {P:σ → Prop} (hs:∀i p s,step i p s → P s)
 (run:Run step previous steps) : ∀s∈results steps,P s := by
 induction run with
 | nil _=>simp [results]
 | cons head _ ih=>exact List.forall_mem_cons.2 ⟨hs _ _ _ head,ih⟩

/-- A transitive relation between each result and the next one holds between any two. -/
theorem Run.pairwise {R:σ → σ → Prop} (htr:∀a b c,R a b → R b c → R a c)
 (hs:∀i p s,step i (some p) s → R p s) (run:Run step previous steps) :
 (results steps).Pairwise R ∧ ∀p,previous=some p → ∀s∈results steps,R p s := by
 induction run with
 | nil _=>simp [results]
 | @cons i previous s rest head _ ih=>
  obtain ⟨hpr,hb⟩:=ih
  have ha:=hb s rfl
  refine ⟨List.pairwise_cons.2 ⟨ha,hpr⟩,?_⟩
  rintro p rfl
  have hp:=hs i p s head
  exact List.forall_mem_cons.2 ⟨hp,fun t ht=>htr p s t hp (ha t ht)⟩

/-- Every step of the run meets a condition on its input and the state before it. -/
def AllSteps (P:ι → Option σ → Prop) : Option σ → List (ι×σ) → Prop
 | _,[]=>True
 | previous,(i,s)::rest=>P i previous ∧ AllSteps P (some s) rest

variable {P:ι → Option σ → Prop}
lemma Run.forall_results_iff {Q:σ → Prop} (hs:∀i p s,step i p s → (Q s ↔ P i p))
 (run:Run step previous steps) : (∀s∈results steps,Q s) ↔ AllSteps P previous steps := by
 induction run with
 | nil _=>simp [results,AllSteps]
 | cons head _ ih=>
  rw [AllSteps,←ih,←hs _ _ _ head]
  exact List.forall_mem_cons

lemma Run.allSteps {I:Option σ → Prop} (hst:∀i p s,step i p s → I p → P i p ∧ I (some s))
 (run:Run step previous steps) (hs:I previous) : AllSteps P previous steps := by
 induction run with
 | nil _=>trivial
 | cons head _ ih=>
  obtain ⟨hc,hn⟩:=hst _ _ _ head hs
  exact ⟨hc,ih hn⟩
end InvariantProtocol.Lineage
