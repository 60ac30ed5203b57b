import Mathlib.Data.List.Basic
/-! Decoders of input that arrives in chunks, whose result does not depend on the chunks. -/
namespace InvariantProtocol.ChunkedDecoder

variable {α β:Type}
/-- `next` cuts an item off the pending input. It leaves no rest where the stream ends there. -/
structure Decoder (α β:Type) where
 next : List α → Option (β×Option (List α))
 shorter : ∀{p:List α} {x:β} {rest:List α},next p=some (x,some rest) → rest.length<p.length
 stable : ∀{p:List α} {x:β} {r:Option (List α)} (c:List α),next p=some (x,r) →
  next (p++c)=some (x,r.map (·++c))

/-- Items, and what is left of the input unless the stream has ended. -/
abbrev Decoded (α β:Type):=List β×Option (List α)

def andThen (r:Decoded α β) (f:List α → Decoded α β) : Decoded α β :=
 match r with
 | (out,none)=>(out,none)
 | (out,some rest)=>(out++(f rest).1,(f rest).2)

variable (d:Decoder α β)
def drain (p:List α) : Decoded α β :=
 match _h : d.next p with
 | none=>([],some p)
 | some (x,none)=>([x],none)
 | some (x,some rest)=>(x::(drain rest).1,(drain rest).2)
termination_by p.length
decreasing_by all_goals exact d.shorter _h

def run : List α → List (List α) → Decoded α β
 | p,[]=>([],some p)
 | p,chunk::chunks=>andThen (drain d (p++chunk)) fun rest=>run rest chunks

variable {d} {p:List α} {x:β}
lemma drain_idle (h:d.next p=none) : drain d p=([],some p) := by
 rw [drain]
 split <;> simp_all

lemma drain_last (h:d.next p=some (x,none)) : drain d p=([x],none) := by
 rw [drain]
 split <;> simp_all

lemma drain_item {rest:List α} (h:d.next p=some (x,some rest)) :
 drain d p=andThen ([x],some rest) (drain d) := by
 rw [drain]
 split <;> simp_all [andThen]

lemma andThen_assoc (r:Decoded α β) (f g:List α → Decoded α β) :
 andThen (andThen r f) g=andThen r fun rest=>andThen (f rest) g := by
 obtain ⟨out,rest⟩:=r
 cases rest with
 | none=>rfl
 | some rest=>
  rcases hf : f rest with ⟨more,_|rest'⟩
  · simp [andThen,hf]
  · simp [andThen,hf]

/-- Whatever is drained before more input comes would be drained with it. -/
theorem drain_append (p c:List α) : drain d (p++c)=andThen (drain d p) fun rest=>drain d (rest++c) := by
 induction hn : p.length using Nat.strongRecOn generalizing p with
 | _ n ih=>
  cases h : d.next p with
  | none=>simp [drain_idle h,andThen]
  | some item=>
   obtain ⟨x,_|rest⟩:=item
   · rw [drain_last h,drain_last (d.stable c h)]
     rfl
   · rw [drain_item h,drain_item (d.stable c h),andThen_assoc]
     have hr:=ih rest.length (hn ▸ d.shorter h) rest rfl
     simp only [andThen,hr]

lemma next_drained {out:List β} {rest:List α} (h:drain d p=(out,some rest)) : d.next rest=none := by
 induction hn : p.length using Nat.strongRecOn generalizing p out with
 | _ n ih=>
  cases hp : d.next p with
  | none=>
   rw [drain_idle hp] at h
   obtain ⟨-,rfl⟩ : out=[] ∧ p=rest:=by simpa [eq_comm] using h
   exact hp
  | some item=>
   obtain ⟨x,_|next⟩:=item
   · rw [drain_last hp] at h
     simp at h
   · rw [drain_item hp] at h
     have hr:(drain d next).2=some rest:=congrArg Prod.snd h
     exact ih next.length (hn ▸ d.shorter hp) (Prod.ext rfl hr) rfl

/-- The chunks do not matter: the loop drains the input as a whole. -/
theorem run_eq_drain (h:d.next p=none) (chunks:List (List α)) :
 run d p chunks=drain d (p++chunks.flatten) := by
 induction chunks generalizing p with
 | nil=>simp [run,drain_idle h]
 | cons chunk chunks ih=>
  rw [run,List.flatten_cons,←List.append_assoc,drain_append (p++chunk)]
  rcases hd : drain d (p++chunk) with ⟨out,_|rest⟩
  · rfl
  · simp only [andThen,ih (next_drained hd)]
end InvariantProtocol.ChunkedDecoder
