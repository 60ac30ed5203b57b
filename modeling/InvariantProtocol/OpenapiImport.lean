import InvariantProtocol.GoResult
import InvariantProtocol.GoText
import Mathlib.Algebra.Order.Ring.Rat
/-! Parts of the OpenAPI importer: the references to components, and the bounds of numbers. -/
namespace InvariantProtocol.OpenapiImport
open List GoResult GoText

section

def escapeJSONPointer (value:String) : String:=replaceAll (replaceAll value "~" "~0") "/" "~1"

def internalComponentReference (reference sectionName:String) : Result String :=
 let start := "#/components/"++sectionName++"/"
 if ¬ startsWith start reference then
  .error (.errorf "expected an internal %s component reference, got %q" [.str sectionName,.str reference])
 else
  let name:=trimStart start reference
  if name = "" ∨ '/' ∈ name.toList then
   .error (.errorf "invalid internal component reference %q" [.str reference])
  else .ok (replaceAll (replaceAll name "~1" "/") "~0" "~")

def tildeEscaped (c:Char) : List Char:=if c = '~' then ['~','0'] else [c]

def escaped (c:Char) : List Char:=if c = '/' then ['~','1'] else tildeEscaped c

/-- A replacement that changes the two special characters only. -/
theorem replaceChars_special {old new:List Char} {f g:Char → List Char}
 (ht:∀rest,replaceChars old new 0 (f '~' ++rest)=g '~' ++replaceChars old new 0 rest)
 (hs:∀rest,replaceChars old new 0 (f '/' ++rest)=g '/' ++replaceChars old new 0 rest)
 (ho:∀c rest,c ≠ '~' → c ≠ '/' → replaceChars old new 0 (f c++rest)=g c++replaceChars old new 0 rest)
 (xs:List Char) : replaceChars old new 0 (xs.flatMap f)=xs.flatMap g := by
 refine replaceChars_flatMap (fun c rest=>?_) xs
 by_cases htc : c = '~'
 · exact htc ▸ ht rest
 · by_cases hsc : c = '/'
   · exact hsc ▸ hs rest
   · exact ho c rest htc hsc

lemma escapeJSONPointer_toList (value:String) : (escapeJSONPointer value).toList=value.toList.flatMap escaped := by
 have htilde:replaceChars ['~'] ['~','0'] 0 (value.toList.flatMap fun c=>[c])=value.toList.flatMap tildeEscaped:=
  replaceChars_special (by simp [replaceChars,tildeEscaped]) (by simp [replaceChars,tildeEscaped])
   (fun c rest ht _=>by simp [replaceChars,tildeEscaped,ht,Ne.symm ht]) _
 have hslash:replaceChars ['/'] ['~','1'] 0 (value.toList.flatMap tildeEscaped)=value.toList.flatMap escaped:=
  replaceChars_special (by simp [replaceChars,escaped,tildeEscaped]) (by simp [replaceChars,escaped,tildeEscaped])
   (fun c rest ht hs=>by simp [replaceChars,escaped,tildeEscaped,ht,hs,Ne.symm hs]) _
 rw [flatMap_singleton'] at htilde
 simp only [escapeJSONPointer,replaceAll,String.toList_ofList]
 exact (congrArg (replaceChars ['/'] ['~','1'] 0) htilde).trans hslash

/-- A tilde of an escaped text stands before the digit that says what it was, so the first replacement
  takes nothing that the second one should have. -/
theorem unescape (value:String) :
 replaceAll (replaceAll (escapeJSONPointer value) "~1" "/") "~0" "~"=value := by
 have hslash:replaceChars ['~','1'] ['/'] 0 (value.toList.flatMap escaped)=value.toList.flatMap tildeEscaped:=
  replaceChars_special (by simp [replaceChars,escaped,tildeEscaped]) (by simp [replaceChars,escaped,tildeEscaped])
   (fun c rest ht hs=>by simp [replaceChars,escaped,tildeEscaped,ht,hs,Ne.symm ht]) _
 have htilde:replaceChars ['~','0'] ['~'] 0 (value.toList.flatMap tildeEscaped)=value.toList.flatMap fun c=>[c]:=
  replaceChars_special (by simp [replaceChars,tildeEscaped]) (by simp [replaceChars,tildeEscaped])
   (fun c rest ht _=>by simp [replaceChars,tildeEscaped,ht,Ne.symm ht]) _
 rw [flatMap_singleton'] at htilde
 have hboth:=(congrArg (replaceChars ['~','0'] ['~'] 0) hslash).trans htilde
 simp only [replaceAll,escapeJSONPointer_toList,String.toList_ofList]
 rw [←String.toList_inj,String.toList_ofList]
 exact hboth

lemma slash_not_escaped (value:String) : '/' ∉ (escapeJSONPointer value).toList := by
 rw [escapeJSONPointer_toList,mem_flatMap]
 rintro ⟨c,-,hc⟩
 unfold escaped tildeEscaped at hc
 split_ifs at hc with hs ht
 · simp at hc
 · simp at hc
 · exact hs (mem_singleton.1 hc).symm

theorem component_references_decode :
  (∀sectionName n,n≠"" →
   internalComponentReference ("#/components/"++sectionName++"/"++escapeJSONPointer n) sectionName=.ok n) ∧
  Function.Injective escapeJSONPointer := by
 have hu:Function.LeftInverse (fun s=>replaceAll (replaceAll s "~1" "/") "~0" "~") escapeJSONPointer:=unescape
 refine ⟨fun sectionName n hn=>?_,hu.injective⟩
 have hne:escapeJSONPointer n≠"" := by
  intro he
  have hempty:escapeJSONPointer ""="" := rfl
  exact hn (hu.injective (he.trans hempty.symm))
 simp only [internalComponentReference,startsWith_append,not_true_eq_false,if_false,trimStart_append]
 rw [if_neg (not_or.2 ⟨hne,slash_not_escaped n⟩),unescape]
end

structure Constraint where
 path : String
 value : String

/-- The keywords of a schema that bound a number; an exclusive one is a boolean in the older dialect. -/
structure Schema where
 minimum : Option ℚ
 maximum : Option ℚ
 exclusiveMinimum : Option (Bool ⊕ ℚ)
 exclusiveMaximum : Option (Bool ⊕ ℚ)

structure NumericBound where
 value : ℚ
 exclusive : Bool

/-- The texts of `strconv.FormatFloat`; `none` is a number beyond the single-precision ones. -/
structure FloatTexts where
 double : ℚ → String
 single : ℚ → Option String

/-! A side of the range is a strict order: the lower bounds `<`, the upper ones `>`. -/
section
variable (r:ℚ → ℚ → Prop) [DecidableRel r]
def stricter (left:Option NumericBound) (right:NumericBound) : NumericBound :=
 match left with
 | none=>right
 | some left=>if r left.value right.value ∨ right.value=left.value ∧ right.exclusive then right else left
end

def stricterLower : Option NumericBound → NumericBound → NumericBound:=stricter (·<·)

def stricterUpper : Option NumericBound → NumericBound → NumericBound:=stricter (·>·)

def sideBound (tighten:Option NumericBound → NumericBound → NumericBound) (plain:Option ℚ)
  (exclusive:Option (Bool ⊕ ℚ)) (missing:GoError) : Result (Option NumericBound) :=
 let bound:=plain.map fun v=>⟨v,false⟩
 match exclusive with
 | none=>.ok bound
 | some (.inl false)=>.ok bound
 | some (.inl true)=>
  match plain with
  | none=>.error missing
  | some v=>.ok (some ⟨v,true⟩)
 | some (.inr v)=>.ok (some (tighten bound ⟨v,true⟩))

def crossing : Option NumericBound → Option NumericBound → Bool
 | some lower,some upper=>
  decide (lower.value>upper.value ∨ lower.value=upper.value ∧ (lower.exclusive ∨ upper.exclusive))
 | _,_=>false

def numericBounds (schema:Schema) (pointer:String) : Result (Option NumericBound×Option NumericBound):=do
 let lower ← sideBound stricterLower schema.minimum schema.exclusiveMinimum
  (.errorf "%s/exclusiveMinimum: boolean true requires minimum" [.str pointer])
 let upper ← sideBound stricterUpper schema.maximum schema.exclusiveMaximum
  (.errorf "%s/exclusiveMaximum: boolean true requires maximum" [.str pointer])
 rejectIf (crossing lower upper) (.errorf "%s: numeric bounds do not admit any value" [.str pointer])
 pure (lower,upper)

def truncate (value:ℚ) : ℤ:=value.num.tdiv value.den

def numericLiteral (texts:FloatTexts) (value:ℚ) (protoName:String) (integer:Bool) : Result String :=
 let shown:=FormatArg.str (texts.double value)
 if integer then
  if (truncate value:ℚ)≠value then .error (.errorf "%v is not an integer" [shown])
  else if value < -2147483648 ∨ value > 2147483647 then .error (.errorf "%v is outside the int32 range" [shown])
  else .ok (formatInt (truncate value))
 else if protoName = "float" then
  match texts.single value with
  | none=>.error (.errorf "%v is outside the float range" [shown])
  | some text=>.ok text
 else .ok (texts.double value)

def boundRule (texts:FloatTexts) (protoName:String) (integer:Bool) (pointer format plain exclusive:String) :
  Option NumericBound → Result (List Constraint)
 | none=>.ok []
 | some bound=>do
  let value ← wrap format [.str pointer] (numericLiteral texts bound.value protoName integer)
  pure [⟨protoName++"."++(if bound.exclusive then exclusive else plain),value⟩]

def numericRules (texts:FloatTexts) (schema:Schema) (protoName:String) (integer:Bool) (pointer:String) :
  Result (List Constraint):=do
 let bounds ← numericBounds schema pointer
 let lower ← boundRule texts protoName integer pointer "%s: lower bound: %w" "gte" "gt" bounds.1
 let upper ← boundRule texts protoName integer pointer "%s: upper bound: %w" "lte" "lt" bounds.2
 pure (lower++upper)

def Asked (r:ℚ → ℚ → Prop) (plain:Option ℚ) (exclusive:Option (Bool ⊕ ℚ)) (x:ℚ) : Prop :=
 (∀m∈plain,r m x ∨ m=x) ∧
 match exclusive with
 | none=>True
 | some (.inl strict)=>strict=true → ∀m∈plain,r m x
 | some (.inr m)=>r m x

def Satisfies (schema:Schema) (x:ℤ) : Prop :=
 Asked (·<·) schema.minimum schema.exclusiveMinimum x ∧ Asked (·>·) schema.maximum schema.exclusiveMaximum x

def NumericBound.Holds (r:ℚ → ℚ → Prop) (bound:NumericBound) (x:ℚ) : Prop :=
 r bound.value x ∨ bound.exclusive=false ∧ bound.value=x

def ruleValue (rules:List Constraint) (path:String) : Option ℤ :=
 (rules.find? fun rule=>rule.path=path).bind fun rule=>parseInt 32 rule.value

def readBound (rules:List Constraint) (strict loose:String) : Option NumericBound :=
 match ruleValue rules strict with
 | some n=>some ⟨n,true⟩
 | none=>(ruleValue rules loose).map fun n=>⟨n,false⟩

/-- Protovalidate: bounds that cross admit what lies outside of both. -/
def BoundsAdmit (lower upper:Option NumericBound) (x:ℤ) : Prop :=
 match lower,upper with
 | some lower,some upper=>
  if upper.value<lower.value then lower.Holds (·<·) x ∨ upper.Holds (·>·) x
  else lower.Holds (·<·) x ∧ upper.Holds (·>·) x
 | lower,upper=>(∀b∈lower,b.Holds (·<·) x) ∧ (∀b∈upper,b.Holds (·>·) x)

def Admits (rules:List Constraint) (x:ℤ) : Prop :=
 BoundsAdmit (readBound rules "int32.gt" "int32.gte") (readBound rules "int32.lt" "int32.lte") x

variable {b:Option NumericBound}
/-- The bound that is kept of two is the one that implies the other. -/
theorem sideBound_holds {r:ℚ → ℚ → Prop} [DecidableRel r] (ht:∀{a b c},r a b → r b c → r a c)
 (hc:∀a b,r a b ∨ a=b ∨ r b a) {plain:Option ℚ} {exclusive:Option (Bool ⊕ ℚ)} {missing:GoError}
 (h:sideBound (stricter r) plain exclusive missing=.ok b) (x:ℚ) :
 (∀n∈b,n.Holds r x) ↔ Asked r plain exclusive x := by
 have hloose:(∀n∈plain.map (fun v=>(⟨v,false⟩:NumericBound)),n.Holds r x) ↔ ∀m∈plain,r m x ∨ m=x:=by
  simp [NumericBound.Holds]
 match exclusive,plain with
 | none,_=>
  cases h
  simpa [Asked] using hloose
 | some (.inl false),_=>
  cases h
  simpa [Asked] using hloose
 | some (.inl true),none=>cases h
 | some (.inl true),some v=>
  cases h
  simpa [Asked,NumericBound.Holds] using Or.inl
 | some (.inr v),none=>
  cases h
  simp [Asked,NumericBound.Holds,stricter]
 | some (.inr v),some l=>
  cases h
  simp only [Option.map_some,stricter,Asked,Option.mem_def,Option.some.injEq,forall_eq',and_true]
  split_ifs with hb
  · simp only [NumericBound.Holds,Bool.true_eq_false,false_and,or_false]
    refine ⟨fun hv=>⟨?_,hv⟩,And.right⟩
    rcases hb with hl|rfl
    · exact .inl (ht hl hv)
    · exact .inl hv
  · have hvl:r v l:=by
     rcases hc l v with hl|rfl|hl
     · exact absurd (.inl hl) hb
     · exact absurd (.inr rfl) hb
     · exact hl
    simp only [NumericBound.Holds,true_and]
    refine ⟨fun hl=>⟨hl,?_⟩,And.left⟩
    rcases hl with hl|rfl
    · exact ht hvl hl
    · exact hvl

lemma boundRule_ok {texts:FloatTexts} {pointer format plain exclusive:String}
 {rules:List Constraint} (h:boundRule texts "int32" true pointer format plain exclusive b=.ok rules) :
 (b=none ∧ rules=[]) ∨ ∃n:ℤ,∃e,b=some ⟨n,e⟩ ∧ -2147483648≤n ∧ n≤2147483647 ∧
  rules=[⟨"int32."++(if e then exclusive else plain),formatInt n⟩] := by
 cases b with
 | none=>
  cases h
  exact .inl ⟨rfl,rfl⟩
 | some b=>
  obtain ⟨v,e⟩:=b
  simp only [boundRule,bind_ok,wrap_ok,pure_ok] at h
  obtain ⟨text,hl,rfl⟩:=h
  simp only [numericLiteral,if_true] at hl
  split_ifs at hl with ht hr
  cases hl
  rw [not_not] at ht
  rw [←ht,not_or,not_lt,not_lt] at hr
  refine .inr ⟨truncate v,e,by rw [ht],by exact_mod_cast hr.1,by exact_mod_cast hr.2,?_⟩
  simp

lemma readBound_rules {texts:FloatTexts} {pointer:String} {lower upper:Option NumericBound}
 {below above:List Constraint}
 (hl:boundRule texts "int32" true pointer "%s: lower bound: %w" "gte" "gt" lower=.ok below)
 (hu:boundRule texts "int32" true pointer "%s: upper bound: %w" "lte" "lt" upper=.ok above) :
 readBound (below++above) "int32.gt" "int32.gte"=lower ∧ readBound (below++above) "int32.lt" "int32.lte"=upper := by
 have hp:∀n:ℤ,-2147483648≤n → n≤2147483647 → parseInt 32 (formatInt n)=some n:=by
  intro n hn hm
  cases n with
  | ofNat n=>
   have hn:(n:ℤ)≤2147483647:=hm
   exact parseInt_formatInt 32 n (by change n<2147483648;omega)
  | negSucc n=>exact parseInt_formatInt_neg 32 n (by change n+1≤2147483648;omega)
 rcases boundRule_ok hl with ⟨rfl,rfl⟩|⟨n,e,rfl,hn,hn',rfl⟩ <;>
  rcases boundRule_ok hu with ⟨rfl,rfl⟩|⟨m,f,rfl,hm,hm',rfl⟩
 · exact ⟨rfl,rfl⟩
 · cases f <;> simp [readBound,ruleValue,hp m hm hm']
 · cases e <;> simp [readBound,ruleValue,hp n hn hn']
 · cases e <;> cases f <;> simp [readBound,ruleValue,hp n hn hn',hp m hm hm']

lemma boundsAdmit_iff {lower upper:Option NumericBound} (h:crossing lower upper=false) (x:ℤ) :
 BoundsAdmit lower upper x ↔ (∀b∈lower,b.Holds (·<·) x) ∧ (∀b∈upper,b.Holds (·>·) x) := by
 match lower,upper with
 | none,_=>rfl
 | some _,none=>rfl
 | some l,some u=>
  simp only [crossing,decide_eq_false_iff_not,not_or] at h
  simp [BoundsAdmit,h.1]

theorem int32_bounds_exact (texts:FloatTexts) (schema:Schema) (pointer:String) (rules:List Constraint)
  (h:numericRules texts schema "int32" true pointer=.ok rules) (x:ℤ) :
  Admits rules x ↔ Satisfies schema x := by
 simp only [numericRules,numericBounds,bind_ok,rejectIf_ok,pure_ok] at h
 obtain ⟨bounds,⟨lower,hl,upper,hu,_,hcross,rfl⟩,below,hbelow,above,habove,rfl⟩:=h
 obtain ⟨hlower,hupper⟩:=readBound_rules hbelow habove
 unfold Admits Satisfies
 rw [hlower,hupper,boundsAdmit_iff (Bool.eq_false_iff.2 hcross),sideBound_holds (r := (·<·)) lt_trans lt_trichotomy hl,
  sideBound_holds (r := (·>·)) (fun h g=>gt_trans h g) (fun a b=>(lt_trichotomy b a).imp id (Or.imp Eq.symm id)) hu]

theorem one_below_ten_exact :
  numericRules ⟨fun _=>"",fun _=>none⟩ ⟨some 1,none,none,some (.inr 10)⟩ "int32" true "#"=
   .ok [⟨"int32.gte","1"⟩,⟨"int32.lt","10"⟩] ∧
  (Admits [⟨"int32.gte","1"⟩,⟨"int32.lt","10"⟩] 10 ↔ Satisfies ⟨some 1,none,none,some (.inr 10)⟩ 10) :=
 ⟨rfl,int32_bounds_exact ⟨fun _=>"",fun _=>none⟩ _ "#" _ rfl 10⟩
end InvariantProtocol.OpenapiImport
