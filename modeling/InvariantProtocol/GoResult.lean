import InvariantProtocol.ListRelations
import Mathlib.Data.Int.Notation
/-! Go's two-valued results. An error is kept as the `fmt.Errorf` call that made
it, so the text of every failure stays visible without a model of `fmt`. -/
namespace InvariantProtocol.GoResult
open List hiding mapM_map

inductive FormatArg where
 | str (value:String)
 | int (value:ℤ)
 | numbers (values:List UInt32)

/-- `exhausted` is the recursion budget of a fuelled definition, not a Go error. -/
inductive GoError where
 | errorf (format:String) (args:List FormatArg)
 | wrapf (format:String) (args:List FormatArg) (cause:GoError)
 | exhausted

abbrev Result (α:Type):=Except GoError α

def rejectIf (p:Prop) [Decidable p] (e:GoError) : Result Unit :=
 if p then .error e else .ok ()

def wrap {α:Type} (format:String) (args:List FormatArg) (x:Result α) : Result α :=
 x.mapError (.wrapf format args)

def succeeds {ε α:Type} : Except ε α → Bool
 | .ok _=>true
 | .error _=>false

def value {ε α:Type} : (x:Except ε α) → succeeds x=true → α
 | .ok a,_=>a
 | .error _,h=>absurd h (by simp [succeeds])

variable {ε α σ:Type}
lemma eq_ok_value (x:Except ε α) (h:succeeds x=true) : x=.ok (value x h) := by
 cases x with
 | ok a=>rfl
 | error e=>simp [succeeds] at h

lemma succeeds_iff (x:Except ε α) : succeeds x=true ↔ ∃a,x=.ok a := by
 cases x <;> simp [succeeds]

@[simp] lemma bind_ok {β:Type} (x:Except ε α) (f:α → Except ε β) (b:β) :
 x >>= f=.ok b ↔ ∃a,x=.ok a ∧ f a=.ok b := by
 cases x with
 | ok a=>simp [bind,Except.bind]
 | error e=>simp [bind,Except.bind]

@[simp] lemma pure_ok (a b:α) : (pure a:Except ε α)=.ok b ↔ a=b := by
 simp [pure,Except.pure]

@[simp] lemma exists_unit_ok (x:Except ε Unit) (p:Unit → Prop) : (∃u,x=.ok u ∧ p u) ↔ x=.ok () ∧ p () :=
 ⟨fun ⟨(),hx,hp⟩=>⟨hx,hp⟩,fun h=>⟨(),h⟩⟩

@[simp] lemma rejectIf_ok (p:Prop) [Decidable p] (e:GoError) (u:Unit) : rejectIf p e=.ok u ↔ ¬p := by
 by_cases h : p <;> simp [rejectIf,h]

lemma mapError_ok {ε':Type} (f:ε → ε') (x:Except ε α) (a:α) : x.mapError f=.ok a ↔ x=.ok a := by
 cases x <;> simp [Except.mapError]

@[simp] lemma wrap_ok (format:String) (args:List FormatArg) (x:Result α) (a:α) :
 wrap format args x=.ok a ↔ x=.ok a :=
 mapError_ok _ x a

/-- A Go loop that threads a state and stops at the first error. -/
def loop {σ α:Type} (step:σ → α → Result σ) : σ → List α → Result σ
 | s,[]=>.ok s
 | s,a::rest=>do
  let s ← step s a
  loop step s rest

@[simp] lemma loop_nil (step:σ → α → Result σ) (s:σ) :
 loop step s []=.ok s := rfl

@[simp] lemma loop_cons (step:σ → α → Result σ) (s u:σ) (a:α) (rest:List α) : loop step s (a::rest)=.ok u ↔
  ∃t,step s a=.ok t ∧ loop step t rest=.ok u := by
 simp [loop]

lemma loop_append (step:σ → α → Result σ) (s u:σ) (xs ys:List α) : loop step s (xs++ys)=.ok u ↔
  ∃t,loop step s xs=.ok t ∧ loop step t ys=.ok u := by
 induction xs generalizing s with
 | nil=>simp
 | cons a xs ih=>
  simp only [cons_append,loop_cons,ih]
  constructor
  · rintro ⟨t,ht,v,hv,hu⟩
    exact ⟨v,⟨t,ht,hv⟩,hu⟩
  · rintro ⟨v,⟨t,ht,hv⟩,hu⟩
    exact ⟨t,ht,v,hv,hu⟩

/-- A loop that registers its items one by one: if a step succeeds exactly on a valid item that
  is compatible with those registered before it, the loop succeeds exactly on a list of valid
  and pairwise compatible items. -/
theorem loop_register {step:σ → α → Result σ} {Reg:σ → List α → Prop} {Valid:α → Prop}
 {C:α → α → Prop} (hs:∀s xs a,Reg s xs → ((∃t,step s a=.ok t) ↔ Valid a ∧ ∀x∈xs,C x a))
 (hn:∀s xs a t,Reg s xs → step s a=.ok t → Reg t (xs++[a])) (ys:List α) (s:σ) (xs:List α) (h:Reg s xs) :
 ((∃t,loop step s ys=.ok t) ↔
   (∀a∈ys,Valid a) ∧ (∀x∈xs,∀a∈ys,C x a) ∧ ys.Pairwise C) ∧
  ∀t,loop step s ys=.ok t → Reg t (xs++ys) := by
 induction ys generalizing s xs with
 | nil=>
  refine ⟨by simp,fun t ht=>?_⟩
  obtain rfl : s=t:=by simpa using ht
  simpa using h
 | cons a ys ih=>
  constructor
  · constructor
    · rintro ⟨t,ht⟩
      obtain ⟨u,hu,ht⟩:=(loop_cons _ _ _ _ _).1 ht
      obtain ⟨hvl,hc⟩:=(hs s xs a h).1 ⟨u,hu⟩
      obtain ⟨hv,hbf,hp⟩:=(ih u _ (hn s xs a u h hu)).1.1 ⟨t,ht⟩
      refine ⟨List.forall_mem_cons.2 ⟨hvl,hv⟩,fun x hx=>?_,?_⟩
      · exact List.forall_mem_cons.2 ⟨hc x hx,hbf x (mem_append_left _ hx)⟩
      · exact List.pairwise_cons.2 ⟨hbf a (by simp),hp⟩
    · rintro ⟨hv,hbf,hp⟩
      obtain ⟨ha,hp⟩:=List.pairwise_cons.1 hp
      obtain ⟨u,hu⟩:=(hs s xs a h).2
       ⟨hv a mem_cons_self,fun x hx=>hbf x hx a mem_cons_self⟩
      obtain ⟨t,ht⟩:=(ih u _ (hn s xs a u h hu)).1.2
       ⟨fun b hb=>hv b (mem_cons_of_mem _ hb),fun x hx b hb=>by
        obtain hx|hx:=List.mem_append.1 hx
        · exact hbf x hx b (mem_cons_of_mem _ hb)
        · obtain rfl : x=a:=by simpa using hx
          exact ha b hb,hp⟩
      exact ⟨t,(loop_cons _ _ _ _ _).2 ⟨u,hu,ht⟩⟩
  · intro t ht
    obtain ⟨u,hu,ht⟩:=(loop_cons _ _ _ _ _).1 ht
    have hr:=(ih u _ (hn s xs a u h hu)).2 t ht
    rwa [append_assoc,singleton_append] at hr

/-- What every step keeps, of the items passed so far, holds of all items in the end. -/
theorem foldlM_invariant {step:σ → α → Except ε σ} {I:List α → σ → Prop} {items:List α} {s t:σ}
 (hsp:∀before x rest s t,items=before++x::rest → I before s → step s x=.ok t →
  I (before++[x]) t) (hst:I [] s) (h:items.foldlM step s=.ok t) : I items t := by
 have hr:∀rest before s,items=before++rest → I before s →
   rest.foldlM step s=.ok t → I items t:=by
  intro rest
  induction rest with
  | nil=>
   intro before s hi hs hr
   obtain rfl : s=t:=by simpa [pure,Except.pure] using hr
   rwa [hi,append_nil]
  | cons x rest ih=>
   intro before s hi hs hr
   rw [foldlM_cons,bind_ok] at hr
   obtain ⟨u,hu,hr⟩:=hr
   exact ih (before++[x]) u (by simpa using hi) (hsp before x rest s u hi hs hu) hr
 exact hr items [] s rfl hst h

open ListRelations

variable {ε α β:Type} {xs:List α} {ys:List β} {f:α → Except ε β}
lemma mapM_ok : xs.mapM f=.ok ys ↔ Forall₂ (fun x y=>f x=.ok y) xs ys := by
 induction xs generalizing ys with
 | nil=>simp [pure,Except.pure,eq_comm]
 | cons x xs ih=>
  simp only [mapM_cons,bind_ok,pure_ok,ih,forall₂_cons_left_iff]
  constructor
  · rintro ⟨y,hy,ys,hys,rfl⟩
    exact ⟨y,ys,hy,hys,rfl⟩
  · rintro ⟨y,ys,hy,hys,rfl⟩
    exact ⟨y,hy,ys,hys,rfl⟩

lemma mapM_map {g:α → β} (h:∀x∈xs,f x=.ok (g x)) : xs.mapM f=.ok (xs.map g) := by
 rw [mapM_ok,forall₂_map_right_iff,forall₂_same]
 exact h

lemma exists_mapM_ok : (∃ys,xs.mapM f=.ok ys) ↔ ∀x∈xs,∃y,f x=.ok y := by
 simp only [mapM_ok,exists_forall₂]

lemma mapM_error {e:ε} (h:xs.mapM f=.error e) : ∃x∈xs,f x=.error e := by
 induction xs with
 | nil=>cases h
 | cons x xs ih=>
  rw [mapM_cons] at h
  cases hx : f x with
  | error e' =>
   rw [hx] at h
   exact ⟨x,mem_cons_self,by rw [hx,Except.error.inj h]⟩
  | ok y=>
   cases hxs : xs.mapM f with
   | error e' =>
    rw [hx,hxs] at h
    obtain ⟨z,hz,hfz⟩:=ih (by rw [hxs,Except.error.inj h])
    exact ⟨z,mem_cons_of_mem x hz,hfz⟩
   | ok ys=>
    rw [hx,hxs] at h
    cases h

lemma forM_ok {f:α → Except ε Unit} : xs.forM f=.ok () ↔ ∀x∈xs,f x=.ok () := by
 induction xs with
 | nil=>simp [List.forM,pure,Except.pure]
 | cons x xs ih=>rw [List.forM,bind_ok,exists_unit_ok,ih,forall_mem_cons]
end InvariantProtocol.GoResult
