import InvariantProtocol.ListRelations
import InvariantProtocol.SqlRoundTrip
import InvariantProtocol.SqlValue
import Mathlib.Data.List.Dedup
/-! The value of an expression. Names are looked up from the innermost binder outward; `none` is a type
error or an exception. -/
namespace InvariantProtocol.SqlEval
open ListRelations SqlType SqlValue SqlExpr SqlRoundTrip

abbrev Env:=List (String×Value)

def truth (b:Bool) : Value:=.scalar (.bool b)

def integer (n:ℤ) : Value:=.scalar (.int n)

def asBool : Value → Option Bool
 | .scalar (.bool b)=>some b
 | _=>none

def isUTF8 (bs:List UInt8) : Bool:=ByteArray.validateUTF8 ⟨bs.toArray⟩

def textBytes (s:String) : List UInt8:=s.toByteArray.data.toList

def equals : Value → Value → Option Value
 | .scalar (.int m),.scalar (.int n)=>some (truth (m=n))
 | .scalar (.bool a),.scalar (.bool b)=>some (truth (a=b))
 | _,_=>none

/-- `accurateCast` raises where the target type cannot hold the value. -/
def castAccurately (type:String) (v:Value) : Option Value :=
 match parseType type,v with
 | some (.decimal precision scale),.scalar (.int n)=>
  if (n*10^scale).natAbs<10^precision then
   some (.scalar (.decimal (n*10^scale) scale))
  else none
 | _,_=>none

-- JSON is only a family of byte strings here.
variable (validJSON:List UInt8 → Bool)
def applyFunction : Function → Value → Option Value
 | .isNull,v=>some (truth (v=.null))
 | .isNotNull,v=>some (truth (v≠.null))
 | .assumeNotNull,.null=>none
 | .assumeNotNull,v=>some v
 | .length,.array vs=>some (integer vs.length)
 | .mapKeys,.map ks _=>some (.array ks)
 | .mapValues,.map _ vs=>some (.array vs)
 | .arrayDistinct,.array vs=>some (.array vs.dedup)
 | .isValidUTF8,.scalar (.bytes bs)=>some (truth (isUTF8 bs))
 | .isValidJSON,.scalar (.bytes bs)=>some (truth (validJSON bs))
 | .toInt64,.scalar (.int n)=>some (integer (Int.bmod n (2^64)))
 | .toUnixTimestamp64Nano,.scalar (.time ticks)=>some (integer ticks)
 | _,_=>none

def eval : Env → Expr → Option Value
 | env,.name s=>env.lookup s
 | env,.quoted s=>env.lookup s
 | env,.hole s=>env.lookup ("\x7b"++s++"\x7d")
 | _,.int n=>some (integer n)
 | _,.bool b=>some (truth b)
 | _,.null=>some .null
 | _,.text s=>some (.scalar (.bytes (textBytes s)))
 | _,.emptyArray=>some (.array [])
 | _,.emptyMap=>some (.map [] [])
 | env,.apply f a=>(eval env a).bind (applyFunction validJSON f)
 | env,.tupleElement a element=>(eval env a).bind (·.element element)
 | env,.accurateCast a type=>(eval env a).bind (castAccurately type)
 | env,.arrayAll x body a=>do
  let .array vs ← eval env a | none
  let bs ← vs.mapM fun v=>(eval ((x,v)::env) body).bind asBool
  some (truth (bs.all id))
 | env,.paren a=>eval env a
 | env,.eq a b=>do
  let x ← eval env a
  let y ← eval env b
  equals x y
 | env,.isIn a ns=>do
  let .scalar (.int n) ← eval env a | none
  some (truth (n∈ns))
 | env,.not a=>do
  let b ← (eval env a).bind asBool
  some (truth !b)
 -- A connective whose first operand decides it has that value whatever the second does.
 | env,.and a b=>do
  if ← (eval env a).bind asBool then (eval env b).bind fun v=>(asBool v).map truth
  else some (truth false)
 | env,.or a b=>do
  if ← (eval env a).bind asBool then some (truth true)
  else (eval env b).bind fun v=>(asBool v).map truth

def evalText (env:Env) (text:String) : Option Value:=(parseExpr text).bind (eval validJSON env)

lemma evalText_render (env:Env) (e:Expr) (hw:e.WellFormed) :
 evalText validJSON env e.render=eval validJSON env e := by
 simp [evalText,parseExpr_render e hw]

def Satisfies (env:Env) (text:String) : Prop:=evalText validJSON env text=some (truth true)

instance (env:Env) (text:String) : Decidable (Satisfies validJSON env text) :=
 inferInstanceAs (Decidable (_=_))

lemma asBool_truth (b:Bool) : asBool (truth b)=some b := rfl

variable {env:Env} {a:Expr}
lemma eval_not {p:Bool} (ha:eval validJSON env a=some (truth p)) :
 eval validJSON env (.not a)=some (truth !p) := by
 simp [eval,ha,asBool_truth]

lemma eval_or {b:Expr} {p q:Bool} (ha:eval validJSON env a=some (truth p))
 (hb:p=false → eval validJSON env b=some (truth q)) :
 eval validJSON env (.or a b)=some (truth (p || q)) := by
 cases p with
 | true=>simp [eval,ha,asBool_truth]
 | false=>simp [eval,ha,hb rfl,asBool_truth]

lemma eval_arrayAll {x:String} {body:Expr} {vs:List Value} {p:Value → Option Bool} {b:Bool}
 (ha:eval validJSON env a=some (.array vs))
 (hb:∀v∈vs,∀b,p v=some b → eval validJSON ((x,v)::env) body=some (truth b))
 (h:(vs.mapM p).map (·.all id)=some b) : eval validJSON env (.arrayAll x body a)=some (truth b) := by
 obtain ⟨bs,hbs,rfl⟩:=Option.map_eq_some_iff.1 h
 have hvl:=mapM_eq_some.1 hbs
 have hm:(vs.mapM fun v=>(eval validJSON ((x,v)::env) body).bind asBool)=some bs:=by
  refine mapM_eq_some.2 ?_
  clear ha hbs h
  induction hvl with
  | nil=>exact .nil
  | @cons v b vs bs hv _ ih=>
   refine .cons ?_ (ih fun w hw=>hb w (List.mem_cons_of_mem _ hw))
   simp [hb v List.mem_cons_self b hv,asBool_truth]
 rw [eval,ha]
 simp [hm]
end InvariantProtocol.SqlEval
