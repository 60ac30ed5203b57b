import Mathlib.Data.List.Basic
import Mathlib.Logic.Relation
namespace InvariantProtocol.GraphSearch

variable {n:ℕ}
structure Graph (V K E:Type) where
 key : V → K
 steps : V → List (V ⊕ E)

structure Found (K σ:Type) where
 seen : List K
 out : σ

variable {V K E σ:Type}
def Graph.Edge (g:Graph V K E) (x y:V) : Prop:=.inl y∈g.steps x

abbrev Graph.Reaches (g:Graph V K E) : V → V → Prop:=Relation.ReflTransGen g.Edge

def follow (visit:Found K σ → V → Option (Found K σ)) (emit:σ → E → σ) (f:Found K σ) :
  V ⊕ E → Option (Found K σ)
 | .inl w=>visit f w
 | .inr e=>some { f with out:=emit f.out e }

/-- What going through `steps` has added: the vertices visited and the things emitted. -/
structure Explored (g:Graph V K E) (emit:σ → E → σ) (steps:List (V ⊕ E)) (f f':Found K σ)
  (visited:List V) (emitted:List E) : Prop where
 seen : ∀k,k∈f'.seen ↔ k∈f.seen ∨ ∃x∈visited,g.key x=k
 starts : ∀w,.inl w∈steps → g.key w∈f'.seen
 reached : ∀x∈visited,∃w,.inl w∈steps ∧ g.Reaches w x
 closed : ∀x∈visited,∀y,g.Edge x y → g.key y∈f'.seen
 out : f'.out=emitted.foldl emit f.out
 emits : ∀e,e∈emitted ↔ .inr e∈steps ∨ ∃x∈visited,.inr e∈g.steps x

variable {g:Graph V K E} {emit:σ → E → σ} {f f' f'':Found K σ}
lemma explored_nil : Explored g emit [] f f [] [] where
 seen k:=by simp
 starts w h:=by cases h
 reached x h:=by cases h
 closed x h:=by cases h
 out:=rfl
 emits e:=by simp

variable {v:V} {steps:List (V ⊕ E)} {visited:List V}
lemma explored_seen (h:g.key v∈f.seen) : Explored g emit [.inl v] f f [] [] where
 seen k:=by simp
 starts w hw:=by
  obtain rfl : w=v:=by simpa using hw
  exact h
 reached x hx:=by cases hx
 closed x hx:=by cases hx
 out:=rfl
 emits e:=by simp

lemma explored_emit (e:E) : Explored g emit [.inr e] f { f with out:=emit f.out e } [] [e] where
 seen k:=by simp
 starts w hw:=by simp at hw
 reached x hx:=by cases hx
 closed x hx:=by cases hx
 out:=rfl
 emits d:=by simp

variable {emitted:List E}
lemma Explored.append {steps':List (V ⊕ E)} {visited':List V} {emitted':List E}
 (h:Explored g emit steps f f' visited emitted) (h':Explored g emit steps' f' f'' visited' emitted') :
 Explored g emit (steps++steps') f f'' (visited++visited') (emitted++emitted') where
 seen k:=by
  rw [h'.seen,h.seen,or_assoc]
  simp only [List.mem_append,or_and_right,exists_or]
 starts w hw:=by
  obtain hw|hw:=List.mem_append.1 hw
  · exact (h'.seen _).2 (.inl (h.starts w hw))
  · exact h'.starts w hw
 reached x hx:=by
  obtain hx|hx:=List.mem_append.1 hx
  · obtain ⟨w,hw,hr⟩:=h.reached x hx
    exact ⟨w,List.mem_append_left _ hw,hr⟩
  · obtain ⟨w,hw,hr⟩:=h'.reached x hx
    exact ⟨w,List.mem_append_right _ hw,hr⟩
 closed x hx y hy:=by
  obtain hx|hx:=List.mem_append.1 hx
  · exact (h'.seen _).2 (.inl (h.closed x hx y hy))
  · exact h'.closed x hx y hy
 out:=by rw [h'.out,h.out,List.foldl_append]
 emits e:=by
  simp only [List.mem_append,h.emits,h'.emits,or_and_right,exists_or]
  exact or_or_or_comm

lemma Explored.visit (h:Explored g emit (g.steps v) { f with seen:=g.key v::f.seen } f' visited emitted) :
 Explored g emit [.inl v] f f' (v::visited) emitted where
 seen k:=by
  rw [h.seen]
  simp only [List.mem_cons,or_and_right,exists_or,exists_eq_left,@eq_comm _ k (g.key v)]
  rw [@or_comm (g.key v=k),or_assoc]
 starts w hw:=by
  obtain rfl : w=v:=by simpa using hw
  exact (h.seen _).2 (.inl List.mem_cons_self)
 reached x hx:=by
  refine ⟨v,List.mem_singleton.2 rfl,?_⟩
  obtain rfl|hx:=List.mem_cons.1 hx
  · exact .refl
  · obtain ⟨w,hw,hr⟩:=h.reached x hx
    exact .head hw hr
 closed x hx y hy:=by
  obtain rfl|hx:=List.mem_cons.1 hx
  · exact h.starts y hy
  · exact h.closed x hx y hy
 out:=h.out
 emits e:=by simp [h.emits]

variable {visit:Found K σ → V → Option (Found K σ)}
lemma explored_foldlM (hv:∀f v f',visit f v=some f' → ∃visited emitted,
  Explored g emit [.inl v] f f' visited emitted) (h:steps.foldlM (follow visit emit) f=some f') :
 ∃visited emitted,Explored g emit steps f f' visited emitted := by
 induction steps generalizing f with
 | nil=>
  obtain rfl : f=f':=by simpa using h
  exact ⟨[],[],explored_nil⟩
 | cons step steps ih=>
  rw [List.foldlM_cons] at h
  obtain ⟨f₁,hs,hr⟩:=Option.bind_eq_some_iff.1 h
  obtain ⟨visited,emitted,hf⟩ :
    ∃visited emitted,Explored g emit [step] f f₁ visited emitted:=by
   cases step with
   | inl w=>exact hv f w f₁ hs
   | inr e=>
    obtain rfl : { f with out:=emit f.out e }=f₁:=by simpa [follow] using hs
    exact ⟨[],[e],explored_emit e⟩
  obtain ⟨visited',emitted',hn⟩:=ih hr
  exact ⟨_,_,hf.append hn⟩

/-- Begun with nothing seen, the steps visit all that can be reached: `U` are vertices among which
a key is that of one vertex. -/
theorem Explored.mem_visited (h:Explored g emit steps f f' visited emitted)
 (hf:f.seen=[]) {U:V → Prop} (hs:∀w,.inl w∈steps → U w)
 (hed:∀x y,U x → g.Edge x y → U y) (hk:∀x y,U x → U y → g.key x=g.key y → x=y) {x:V} :
 x∈visited ↔ ∃w,.inl w∈steps ∧ g.Reaches w x := by
 have hr:∀{w x},U w → g.Reaches w x → U x:=by
  intro w x hw hwx
  induction hwx with
  | refl=>exact hw
  | tail _ hxy ih=>exact hed _ _ ih hxy
 have hv:∀x,U x → g.key x∈f'.seen → x∈visited:=by
  intro x hx hsn
  obtain ho|⟨y,hy,hxy⟩:=(h.seen _).1 hsn
  · simp [hf] at ho
  · obtain ⟨w,hw,hwy⟩:=h.reached y hy
    rw [←hk y x (hr (hs w hw) hwy) hx hxy]
    exact hy
 refine ⟨h.reached x,?_⟩
 rintro ⟨w,hw,hwx⟩
 induction hwx with
 | refl=>exact hv w (hs w hw) (h.starts w hw)
 | tail hwx hxy ih=>
  exact hv _ (hed _ _ (hr (hs w hw) hwx) hxy) (h.closed _ ih _ hxy)

variable [DecidableEq K]
/-- `none` is a search that is not over after `n` nested visits. -/
def search (g:Graph V K E) (emit:σ → E → σ) : ℕ → Found K σ → V → Option (Found K σ)
 | 0,_,_=>none
 | n+1,f,v=>
  if g.key v∈f.seen then some f
  else (g.steps v).foldlM (follow (search g emit n) emit) { f with seen:=g.key v::f.seen }

lemma explored_search (h:search g emit n f v=some f') :
 ∃visited emitted,Explored g emit [.inl v] f f' visited emitted := by
 induction n generalizing f f' v with
 | zero=>cases h
 | succ n ih=>
  rw [search] at h
  split_ifs at h with hsn
  · obtain rfl : f=f':=by simpa using h
    exact ⟨[],[],explored_seen hsn⟩
  · obtain ⟨visited,emitted,hs⟩:=explored_foldlM (fun f v f' => ih) h
    exact ⟨_,_,hs.visit⟩

variable {keys:List K}
def unseen (keys:List K) (f:Found K σ) : ℕ:=(keys.filter (· ∉ f.seen)).length

lemma unseen_mono (h:∀k∈f.seen,k∈f'.seen) : unseen keys f'≤unseen keys f := by
 refine List.Sublist.length_le (List.monotone_filter_right keys fun k hk=>?_)
 simp only [decide_eq_true_eq] at hk ⊢
 exact fun ho=>hk (h k ho)

lemma unseen_lt {k:K} (hk:k∈keys) (hn:k∉f.seen) :
 unseen keys { f with seen:=k::f.seen }<unseen keys f := by
 have hf:keys.filter (· ∉ k::f.seen)=(keys.filter (· ∉ f.seen)).filter (· ≠ k):=by
  rw [List.filter_filter]
  refine List.filter_congr fun x _=>?_
  simp [not_or]
 rw [unseen,unseen,hf]
 refine List.length_filter_lt_length_iff_exists.2 ⟨k,?_,by simp⟩
 simpa [hk] using hn

lemma foldlM_isSome (hv:∀f v f',visit f v=some f' → ∃visited emitted,
  Explored g emit [.inl v] f f' visited emitted)
 (ht:∀f v,g.key v∈keys → unseen keys f<n → ∃f',visit f v=some f')
 {steps:List (V ⊕ E)} (hs:∀w,.inl w∈steps → g.key w∈keys)
 (hn:unseen keys f<n) : ∃f',steps.foldlM (follow visit emit) f=some f' := by
 induction steps generalizing f with
 | nil=>exact ⟨f,rfl⟩
 | cons step steps ih=>
  have hr:∀w,.inl w∈steps → g.key w∈keys:=fun w hw=>
   hs w (List.mem_cons_of_mem _ hw)
  cases step with
  | inl w=>
   obtain ⟨f₁,hf₁⟩:=ht f w (hs w List.mem_cons_self) hn
   obtain ⟨visited,emitted,hex⟩:=hv f w f₁ hf₁
   have hm:unseen keys f₁≤unseen keys f:=
    unseen_mono fun k hk=>(hex.seen k).2 (.inl hk)
   obtain ⟨f',hf'⟩:=ih hr (Nat.lt_of_le_of_lt hm hn)
   exact ⟨f',by simp [follow,hf₁,hf']⟩
  | inr e=>
   obtain ⟨f',hf'⟩:=@ih { f with out:=emit f.out e } hr hn
   exact ⟨f',by simp [follow,hf']⟩

/-- Among finitely many keys, more nested visits than there are unseen keys suffice. -/
theorem search_isSome (hed:∀x y,g.key x∈keys → g.Edge x y → g.key y∈keys) {v:V}
 (hv:g.key v∈keys) (hn:unseen keys f<n) : ∃f',search g emit n f v=some f' := by
 induction n generalizing f v with
 | zero=>omega
 | succ n ih=>
  rw [search]
  split_ifs with hs
  · exact ⟨f,rfl⟩
  · have hlt:=@unseen_lt _ _ f _ keys _ hv hs
    exact foldlM_isSome (fun f v f' => explored_search) (fun f v hv hn=>ih hv hn)
     (fun w hw=>hed v w hv hw) (by omega)
end InvariantProtocol.GraphSearch
