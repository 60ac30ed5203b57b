import Mathlib.Data.List.Basic
import Mathlib.Logic.Function.Basic
/-! An output stream behind a lock. Writers hand over bodies piece by piece, and may be abandoned
wherever they are. -/
namespace InvariantProtocol.FramedOutput

abbrev Bytes:=List UInt8

inductive Stage where
 | idle
 | waiting (body:Bytes)
 | writing (written rest:Bytes)
 | flushing
 deriving DecidableEq

variable {W:Type}
/-- `handed` has every body that a writer was started with. -/
structure Output (W:Type) where
 stage : W → Stage:=fun _=>.idle
 lock : Option W:=none
 out : Bytes:=[]
 handed : List Bytes:=[]

namespace Output

variable [DecidableEq W]
def start (o:Output W) (w:W) (body:Bytes) : Output W :=
 { o with stage:=Function.update o.stage w (.waiting body),handed:=o.handed++[body] }

def acquire (o:Output W) (w:W) (body:Bytes) : Output W :=
 { o with stage:=Function.update o.stage w (.writing [] body),lock:=some w }

def poll (o:Output W) (w:W) (written chunk rest:Bytes) : Output W :=
 { o with
   stage:=Function.update o.stage w (if rest=[] then .flushing else .writing (written++chunk) rest)
   out:=o.out++chunk }

def flush (o:Output W) (w:W) : Output W :=
 { o with stage:=Function.update o.stage w .idle,lock:=none }

/-- Dropping the writer drops its guard. -/
def abandon (o:Output W) (w:W) : Output W :=
 { o with
   stage:=Function.update o.stage w .idle
   lock:=if o.lock=some w then none else o.lock }

variable (o:Output W) {v w:W}
lemma start_stage (body:Bytes) (h:v≠w) : (o.start w body).stage v=o.stage v :=
 Function.update_of_ne h _ _

lemma acquire_stage (body:Bytes) (h:v≠w) : (o.acquire w body).stage v=o.stage v :=
 Function.update_of_ne h _ _

lemma poll_stage (written chunk rest:Bytes) (h:v≠w) :
 (o.poll w written chunk rest).stage v=o.stage v := Function.update_of_ne h _ _

lemma flush_stage (h:v≠w) : (o.flush w).stage v=o.stage v := Function.update_of_ne h _ _

lemma abandon_stage (h:v≠w) : (o.abandon w).stage v=o.stage v := Function.update_of_ne h _ _

lemma flush_stage_self : (o.flush w).stage w=.idle := Function.update_self ..

lemma abandon_stage_self : (o.abandon w).stage w=.idle := Function.update_self ..
end Output

def MidWrite (o:Output W) (w:W) : Prop :=
 ∃written rest,o.stage w=.writing written rest ∧ written≠[]

def Stage.taken : Stage → Bytes
 | .writing written _=>written
 | _=>[]

def Output.current (o:Output W) : Bytes :=
 match o.lock with
 | some w=>(o.stage w).taken
 | none=>[]

/-- A body under way was handed over, and only the holder of the lock writes or flushes. -/
def Entitled (o:Output W) (w:W) : Prop :=
 match o.stage w with
 | .idle=>True
 | .waiting body=>body∈o.handed
 | .writing written rest=>o.lock=some w ∧ written++rest∈o.handed
 | .flushing=>o.lock=some w

/-- The output is a sequence of complete bodies, and after them the bytes of the holder's. -/
structure Framed (o:Output W) : Prop where
 bodies : ∃done : List Bytes,o.out=done.flatten++o.current ∧ ∀body∈done,body∈o.handed
 entitled : ∀w,Entitled o w

lemma framed_initial : Framed ({} : Output W) where
 bodies:=⟨[],rfl,by simp⟩
 entitled _:=trivial

lemma Framed.complete {o:Output W} (h:Framed o) (hi:∀w,o.stage w=.idle) :
 ∃done : List Bytes,o.out=done.flatten ∧ ∀body∈done,body∈o.handed := by
 obtain ⟨done,ho,hd⟩:=h.bodies
 refine ⟨done,?_,hd⟩
 have hc:o.current=[]:=by
  unfold Output.current
  split
  · rw [hi]
    rfl
  · rfl
 rw [ho,hc,List.append_nil]

variable [DecidableEq W] {o:Output W} {w:W}
/-- A step of one writer leaves the others entitled to what they do, if it takes no lock from them. -/
theorem entitled_others (w:W) {o':Output W} (h:Framed o) (how:Entitled o' w)
 (hs:∀v,v≠w → o'.stage v=o.stage v) (hh:∀body∈o.handed,body∈o'.handed)
 (hl:∀v,v≠w → o.lock=some v → o'.lock=some v) (v:W) : Entitled o' v := by
 by_cases hvw : v=w
 · rw [hvw]
   exact how
 · have ho:=h.entitled v
   unfold Entitled at ho ⊢
   rw [hs v hvw]
   cases hv : o.stage v with
   | idle=>trivial
   | waiting body=>
    rw [hv] at ho
    exact hh body ho
   | writing written rest=>
    rw [hv] at ho
    exact ⟨hl v hvw ho.1,hh _ ho.2⟩
   | flushing=>
    rw [hv] at ho
    exact hl v hvw ho

section
variable (h:Framed o)
include h
lemma Framed.start (hi:o.stage w=.idle) (body:Bytes) : Framed (o.start w body) := by
 obtain ⟨done,ho,hd⟩:=h.bodies
 have hc:(o.start w body).current=o.current:=by
  unfold Output.current Output.start
  cases hl : o.lock with
  | none=>rfl
  | some v=>
   by_cases hv : v=w
   · subst hv
     simp [hi,Stage.taken]
   · simp [hv]
 refine ⟨⟨done,ho.trans (congrArg _ hc.symm),?_⟩,?_⟩
 · exact fun b hb=>List.mem_append_left _ (hd b hb)
 · apply entitled_others w h
   · simp [Entitled,Output.start]
   · exact fun v hv=>o.start_stage body hv
   · exact fun b hb=>List.mem_append_left _ hb
   · exact fun v _ hl=>hl

lemma Framed.acquire (hl:o.lock=none) {body:Bytes}
 (hw:o.stage w=.waiting body) : Framed (o.acquire w body) := by
 obtain ⟨done,ho,hd⟩:=h.bodies
 have hbd:body∈o.handed:=by simpa [Entitled,hw] using h.entitled w
 refine ⟨⟨done,?_,hd⟩,?_⟩
 · simpa [Output.acquire,Output.current,Stage.taken,hl] using ho
 · apply entitled_others w h
   · simpa [Entitled,Output.acquire] using hbd
   · exact fun v hv=>o.acquire_stage body hv
   · exact fun b hb=>hb
   · simp [hl]

lemma Framed.poll {written chunk rest:Bytes}
 (hw:o.stage w=.writing written (chunk++rest)) : Framed (o.poll w written chunk rest) := by
 obtain ⟨done,ho,hd⟩:=h.bodies
 obtain ⟨hl,hbd⟩ : o.lock=some w ∧ written++(chunk++rest)∈o.handed:=by
  simpa [Entitled,hw] using h.entitled w
 rw [←List.append_assoc] at hbd
 have hc:o.current=written:=by simp [Output.current,hl,hw,Stage.taken]
 rw [hc] at ho
 constructor
 · by_cases hr : rest=[]
   · -- The body is complete.
     subst hr
     rw [List.append_nil] at hbd
     refine ⟨done++[written++chunk],?_,?_⟩
     · simp [Output.poll,Output.current,Stage.taken,hl,ho]
     · intro b hb
       rcases List.mem_append.1 hb with hb|hb
       · exact hd b hb
       · rw [List.mem_singleton.1 hb]
         exact hbd
   · refine ⟨done,?_,hd⟩
     simp [Output.poll,Output.current,Stage.taken,hl,ho,hr]
 · apply entitled_others w h
   · by_cases hr : rest=[]
     · simp [Entitled,Output.poll,hr,hl]
     · simpa [Entitled,Output.poll,hr,hl] using hbd
   · exact fun v hv=>o.poll_stage written chunk rest hv
   · exact fun b hb=>hb
   · exact fun v _ hl=>hl

lemma Framed.leave (ht:(o.stage w).taken=[]) : Framed (o.abandon w) := by
 obtain ⟨done,ho,hd⟩:=h.bodies
 have hc:(o.abandon w).current=o.current:=by
  unfold Output.current Output.abandon
  cases hl : o.lock with
  | none=>simp
  | some v=>
   by_cases hv : v=w
   · subst hv
     simp [ht]
   · simp [hv]
 refine ⟨⟨done,ho.trans (congrArg _ hc.symm),hd⟩,?_⟩
 apply entitled_others w h
 · simp [Entitled,Output.abandon]
 · exact fun v hv=>o.abandon_stage hv
 · exact fun b hb=>hb
 · intro v hvw hl
   simp [Output.abandon,hl,hvw]

lemma Framed.abandon (hm:¬MidWrite o w) : Framed (o.abandon w) := by
 apply h.leave
 cases hs : o.stage w with
 | writing written rest=>
  by_contra hw
  exact hm ⟨written,rest,hs,hw⟩
 | _=>rfl

lemma Framed.flush (hf:o.stage w=.flushing) : Framed (o.flush w) := by
 have hlc:o.lock=some w:=by simpa [Entitled,hf] using h.entitled w
 have hl:=h.leave (w := w) (by simp [hf,Stage.taken])
 simpa [Output.abandon,Output.flush,hlc] using hl
end
end InvariantProtocol.FramedOutput
