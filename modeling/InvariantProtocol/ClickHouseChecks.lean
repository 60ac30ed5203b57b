import Mathlib.Data.Int.CharZero
import InvariantProtocol.LogicalRow
namespace InvariantProtocol.ClickHouseChecks
open ListRelations GoText SqlValue SqlExpr SqlEval

inductive Check where
 | utf8
 | json
 | oneOf (ns:List ℤ)
 | hasLength (n:ℕ)
 | distinctKeys
 | isTrue
 | isFalse
 | selected (caseName:String) (n:ℕ) (member:String)
 | element (name:String) (c:Check)
 | ifPresent (c:Check)
 | ifNotNull (c:Check)
 | allElements (c:Check)
 | allKeys (c:Check)
 | allValues (c:Check)

def Check.expr : Check → Expr → Expr
 | .utf8,x=>.apply .isValidUTF8 x
 | .json,x=>.apply .isValidJSON x
 | .oneOf ns,x=>.isIn x ns
 | .hasLength n,x=>.eq (.apply .length x) (.int n)
 | .distinctKeys,x=>.eq (.apply .length (.apply .mapKeys x))
   (.apply .length (.apply .arrayDistinct (.apply .mapKeys x)))
 | .isTrue,x=>x
 | .isFalse,x=>.eq x (.bool false)
 | .selected caseName n member,x=>
  .eq (.paren (.eq (.tupleElement x caseName) (.int n)))
   (.tupleElement (.tupleElement x member) "present")
 | .element name c,x=>c.expr (.tupleElement x name)
 | .ifPresent c,x=>
  .or (.not (.tupleElement x "present")) (.paren (c.expr (.tupleElement x "value")))
 | .ifNotNull c,x=>.or (.apply .isNull x) (.paren (c.expr (.apply .assumeNotNull x)))
 | .allElements c,x=>.arrayAll "element" (.paren (c.expr (.name "element"))) x
 | .allKeys c,x=>.arrayAll "key" (.paren (c.expr (.name "key"))) (.apply .mapKeys x)
 | .allValues c,x=>.arrayAll "value" (.paren (c.expr (.name "value"))) (.apply .mapValues x)

/-- A check on a scope, written over the columns of the table. -/
def Check.columnExpr : Check → Expr
 | .selected caseName n member=>
  .eq (.paren (.eq (.quoted caseName) (.int n))) (.tupleElement (.quoted member) "present")
 | .element name c=>c.expr (.quoted name)
 | _=>.null

def Check.onScope : Check → Bool
 | .selected _ _ _=>true
 | .element _ _=>true
 | _=>false

variable (validJSON:List UInt8 → Bool)
/-- What the check says of a value; `none` where the value has another type. -/
def Check.value : Check → Value → Option Bool
 | .utf8,.scalar (.bytes bs)=>some (isUTF8 bs)
 | .json,.scalar (.bytes bs)=>some (validJSON bs)
 | .oneOf ns,.scalar (.int n)=>some (n∈ns)
 | .hasLength n,.array vs=>some (vs.length=n)
 | .distinctKeys,.map ks _=>some (ks.length=ks.dedup.length)
 | .isTrue,.scalar (.bool b)=>some b
 | .isFalse,.scalar (.bool b)=>some !b
 | .selected caseName n member,v=>do
  let .scalar (.int k) ← v.element caseName | none
  let present ← ((v.element member).bind (·.element "present")).bind asBool
  some (decide (k=n)=present)
 | .element name c,v=>(v.element name).bind c.value
 | .ifPresent c,v=>do
  if ← (v.element "present").bind asBool then (v.element "value").bind c.value else some true
 | .ifNotNull c,v=>if v=.null then some true else c.value v
 | .allElements c,.array vs=>(vs.mapM c.value).map (·.all id)
 | .allKeys c,.map ks _=>(ks.mapM c.value).map (·.all id)
 | .allValues c,.map _ vs=>(vs.mapM c.value).map (·.all id)
 | _,_=>none

lemma asBool_eq_some {v:Value} {b:Bool} : asBool v=some b ↔ v=truth b := by
 unfold asBool
 split
 · simp [truth]
 · next h=>exact ⟨by simp,fun hv=>absurd hv (h b)⟩

/-- The expression of a check evaluates to what the check says of the value of its argument. -/
theorem eval_check (c:Check) {env:Env} {x:Expr} {v:Value} {b:Bool}
 (hx:eval validJSON env x=some v) (h:c.value validJSON v=some b) :
 eval validJSON env (c.expr x)=some (truth b) := by
 induction c generalizing env x v b with
 | utf8=>
  unfold Check.value at h
  split at h <;> simp_all [Check.expr,eval,applyFunction]
 | json=>
  unfold Check.value at h
  split at h <;> simp_all [Check.expr,eval,applyFunction]
 | oneOf ns=>
  unfold Check.value at h
  split at h <;> simp_all [Check.expr,eval]
 | hasLength n=>
  unfold Check.value at h
  split at h <;> simp_all [Check.expr,eval,applyFunction,equals,integer]
 | distinctKeys=>
  unfold Check.value at h
  split at h <;> simp_all [Check.expr,eval,applyFunction,equals,integer]
 | isTrue=>
  unfold Check.value at h
  split at h <;> simp_all [Check.expr,truth]
 | isFalse=>
  unfold Check.value at h
  split at h <;> simp_all [Check.expr,eval,equals,truth]
 | selected caseName n member=>
  simp only [Check.value,Option.bind_eq_bind] at h
  obtain ⟨k,hk,h⟩:=Option.bind_eq_some_iff.1 h
  split at h
  · next k=>
    obtain ⟨present,hp,h⟩:=Option.bind_eq_some_iff.1 h
    obtain ⟨w,hw,hbl⟩:=Option.bind_eq_some_iff.1 hp
    obtain ⟨m,hm,hw⟩:=Option.bind_eq_some_iff.1 hw
    rw [asBool_eq_some.1 hbl] at hw
    simp [Check.expr,eval,hx,hk,hm,hw,equals,integer,truth] at h ⊢
    exact h
  · simp at h
 | element name c ih=>
  obtain ⟨w,hw,h⟩:=Option.bind_eq_some_iff.1 h
  exact ih (by simp [eval,hx,hw]) h
 | ifPresent c ih=>
  simp only [Check.value,Option.bind_eq_bind] at h
  obtain ⟨present,hp,h⟩:=Option.bind_eq_some_iff.1 h
  obtain ⟨w,hw,hbl⟩:=Option.bind_eq_some_iff.1 hp
  rw [asBool_eq_some.1 hbl] at hw
  have ht:eval validJSON env (.tupleElement x "present")=some (truth present):=by
   simp [eval,hx,hw]
  cases present with
  | false=>
   obtain rfl : true=b:=by simpa using h
   exact eval_or validJSON (q := true) (eval_not validJSON ht) (by simp)
  | true=>
   obtain ⟨w,hw,h⟩:=Option.bind_eq_some_iff.1 (by simpa using h)
   have hvalue:eval validJSON env (.tupleElement x "value")=some w:=by
    simp [eval,hx,hw]
   exact eval_or validJSON (eval_not validJSON ht) fun _=>ih hvalue h
 | ifNotNull c ih=>
  have hn:eval validJSON env (.apply .isNull x)=some (truth (v=.null)):=by
   simp [eval,hx,applyFunction]
  by_cases hv : v=.null
  · obtain rfl : true=b:=by simpa [Check.value,hv] using h
    exact (eval_or validJSON (q := true) hn (by simp [hv])).trans (by simp)
  · have hvalue:eval validJSON env (.apply .assumeNotNull x)=some v:=by
     rw [eval,hx]
     cases v <;> simp_all [applyFunction]
    have hc:=ih hvalue (by simpa [Check.value,hv] using h)
    exact (eval_or validJSON hn fun _=>hc).trans (by simp [hv])
 | allElements c ih=>
  unfold Check.value at h
  split at h <;> simp_all only [reduceCtorEq,Check.allElements.injEq]
  exact eval_arrayAll validJSON hx (fun v _ b hb=>ih (by simp [eval]) hb) h
 | allKeys c ih=>
  unfold Check.value at h
  split at h <;> simp_all only [reduceCtorEq,Check.allKeys.injEq]
  exact eval_arrayAll validJSON (by simp [eval,hx,applyFunction])
   (fun v _ b hb=>ih (by simp [eval]) hb) h
 | allValues c ih=>
  unfold Check.value at h
  split at h <;> simp_all only [reduceCtorEq,Check.allValues.injEq]
  exact eval_arrayAll validJSON (by simp [eval,hx,applyFunction])
   (fun v _ b hb=>ih (by simp [eval]) hb) h

lemma eval_columnCheck (c:Check) (hc:c.onScope=true) {names:List String} {row:List Value}
 {b:Bool} (h:c.value validJSON (.tuple names row)=some b) :
 eval validJSON (names.zip row) c.columnExpr=some (truth b) := by
 cases c with
 | element name c=>
  obtain ⟨w,hw,h⟩:=Option.bind_eq_some_iff.1 h
  exact eval_check validJSON c hw h
 | selected caseName n member=>
  -- The two columns stand where the elements of the tuple do.
  have ht:=@eval_check validJSON (.selected caseName n member)
   [("row",.tuple names row)] (.name "row") _ _ (by simp [eval]) h
  simpa [Check.expr,Check.columnExpr,eval,Value.element] using ht
 | _=>simp [Check.onScope] at hc

/-- The checks have a value at `v`, and hold there exactly if `P` does. -/
def Decides (cs:List Check) (v:Value) (P:Prop) : Prop :=
 (∀c∈cs,∃b,c.value validJSON v=some b) ∧ ((∀c∈cs,c.value validJSON v=some true) ↔ P)

variable {validJSON} {cs ds:List Check} {v w:Value} {P Q:Prop}
lemma Decides.congr (h:Decides validJSON cs v P) (hPQ:P ↔ Q) : Decides validJSON cs v Q :=
 ⟨h.1,h.2.trans hPQ⟩

lemma decides_nil : Decides validJSON [] v True := by simp [Decides]

lemma decides_singleton {c:Check} {b:Bool} (h:c.value validJSON v=some b) :
 Decides validJSON [c] v (b=true) := by
 simp [Decides,h]

lemma Decides.append (hc:Decides validJSON cs v P) (hd:Decides validJSON ds v Q) :
 Decides validJSON (cs++ds) v (P ∧ Q) := by
 refine ⟨fun c hm=>?_,?_⟩
 · rcases List.mem_append.1 hm with hm|hm
   · exact hc.1 c hm
   · exact hd.1 c hm
 · rw [List.forall_mem_append,hc.2,hd.2]

variable {f:Check → Check}
lemma Decides.map (hc:Decides validJSON cs w P)
 (hf:∀c b,c.value validJSON w=some b → (f c).value validJSON v=some b) :
 Decides validJSON (cs.map f) v P := by
 have hvalue:∀c∈cs,(f c).value validJSON v=c.value validJSON w:=by
  intro c hm
  obtain ⟨b,hb⟩:=hc.1 c hm
  rw [hb,hf c b hb]
 refine ⟨?_,?_⟩
 · simp only [List.forall_mem_map]
   exact fun c hm=>hvalue c hm ▸ hc.1 c hm
 · rw [←hc.2,List.forall_mem_map]
   exact forall₂_congr fun c hm=>by rw [hvalue c hm]

lemma Decides.element {name:String} (hw:v.element name=some w) (hc:Decides validJSON cs w P) :
 Decides validJSON (cs.map (.element name)) v P :=
 hc.map fun c b hb=>by simp [Check.value,hw,hb]

lemma decides_guarded (hf:∀c,(f c).value validJSON v=some true) :
 Decides validJSON (cs.map f) v True := by
 simp [Decides,hf]

lemma mapM_eq_some_of_forall {p:Value → Option Bool} {vs:List Value} (h:∀v∈vs,∃b,p v=some b) :
 vs.mapM p=some (vs.map fun v=>(p v).getD false) := by
 rw [mapM_eq_some,List.forall₂_map_right_iff,List.forall₂_same]
 intro v hv
 obtain ⟨b,hb⟩:=h v hv
 simp [hb]

lemma decides_all {vs:List Value} {P:Value → Prop}
 (hf:∀c,(f c).value validJSON v=(vs.mapM (c.value validJSON)).map (·.all id))
 (h:∀w∈vs,Decides validJSON cs w (P w)) : Decides validJSON (cs.map f) v (∀w∈vs,P w) := by
 have hvalue:∀c∈cs,(f c).value validJSON v =
   some (vs.all fun w=>(c.value validJSON w).getD false):=by
  intro c hc
  rw [hf,mapM_eq_some_of_forall fun w hw=>(h w hw).1 c hc]
  simp
 refine ⟨?_,?_⟩
 · simp only [List.forall_mem_map]
   exact fun c hc=>⟨_,hvalue c hc⟩
 · rw [List.forall_mem_map]
   have ha:(∀c∈cs,(f c).value validJSON v=some true) ↔
     ∀c∈cs,∀w∈vs,c.value validJSON w=some true:=by
    refine forall₂_congr fun c hc=>?_
    rw [hvalue c hc,Option.some.injEq,List.all_eq_true]
    refine forall₂_congr fun w hw=>?_
    obtain ⟨b,hb⟩:=(h w hw).1 c hc
    simp [hb]
   rw [ha]
   exact ⟨fun hc w hw=>(h w hw).2.1 fun c hm=>hc c hm w hw,
    fun hw c hm w hm' => (h w hm').2.2 (hw w hm') c hm⟩
end InvariantProtocol.ClickHouseChecks
