import InvariantProtocol.SqlType
import Mathlib.Algebra.Group.Int.Defs
import Mathlib.Algebra.Group.Nat.Defs
import Mathlib.Data.List.Nodup
/-! Stored values, the values a column type admits, and the default of a type. -/
namespace InvariantProtocol.SqlValue
open SqlType

variable {name:String} {names:List String} {t:ColumnType} {types:List ColumnType}
/-- Floating-point numbers and UUIDs are kept as their bits, times as ticks of the column's
  precision, decimals as the integer before scaling. -/
inductive Scalar where
 | bool (b:Bool)
 | int (n:ℤ)
 | float (bits:ℕ)
 | bytes (bs:List UInt8)
 | time (ticks:ℤ)
 | decimal (unscaled:ℤ) (scale:ℕ)
 | uuid (bits:ℕ)
 deriving DecidableEq

inductive Value where
 | null
 | scalar (s:Scalar)
 | array (items:List Value)
 | map (keys values:List Value)
 | tuple (names:List String) (items:List Value)

mutual

def Value.same : Value → Value → Bool
 | .null,.null=>true
 | .scalar s,.scalar t=>s=t
 | .array xs,.array ys=>sameAll xs ys
 | .map ks vs,.map ks' vs' => sameAll ks ks' && sameAll vs vs'
 | .tuple names xs,.tuple names' ys=>names=names' && sameAll xs ys
 | _,_=>false

def sameAll : List Value → List Value → Bool
 | [],[]=>true
 | x::xs,y::ys=>x.same y && sameAll xs ys
 | _,_=>false
end

mutual

lemma same_iff : (x y:Value) → (x.same y=true ↔ x=y)
 | .null,y=>by cases y <;> simp [Value.same]
 | .scalar s,y=>by cases y <;> simp [Value.same]
 | .array xs,y=>by
  cases y with
  | array ys=>simp [Value.same,sameAll_iff xs ys]
  | _=>simp [Value.same]
 | .map ks vs,y=>by
  cases y with
  | map ks' vs' => simp [Value.same,sameAll_iff ks ks',sameAll_iff vs vs']
  | _=>simp [Value.same]
 | .tuple names xs,y=>by
  cases y with
  | tuple names' ys=>simp [Value.same,sameAll_iff xs ys]
  | _=>simp [Value.same]

lemma sameAll_iff : (xs ys:List Value) → (sameAll xs ys=true ↔ xs=ys)
 | [],ys=>by cases ys <;> simp [sameAll]
 | x::xs,ys=>by
  cases ys with
  | nil=>simp [sameAll]
  | cons y ys=>simp [sameAll,same_iff x y,sameAll_iff xs ys]
end

instance : DecidableEq Value:=fun x y=>decidable_of_iff _ (same_iff x y)

def Value.element (v:Value) (name:String) : Option Value :=
 match v with
 | .tuple names items=>(names.zip items).lookup name
 | _=>none

def inRange (low high n:ℤ) : Bool:=low≤n && n<high

def baseAdmits : BaseType → Scalar → Bool
 | .bool,.bool _=>true
 | .int32,.int n=>inRange (-2^31) (2^31) n
 | .int64,.int n=>inRange (-2^63) (2^63) n
 | .uint32,.int n=>inRange 0 (2^32) n
 | .uint64,.int n=>inRange 0 (2^64) n
 | .float32,.float bits=>bits<2^32
 | .float64,.float bits=>bits<2^64
 | .string,.bytes _=>true
 | .uuid,.uuid bits=>bits<2^128
 | _,_=>false

mutual

def admits : ColumnType → Value → Bool
 | .base b,.scalar s=>baseAdmits b s
 | .dateTime64 _ _,.scalar (.time ticks)=>inRange (-2^63) (2^63) ticks
 | .decimal precision scale,.scalar (.decimal unscaled scale')=>
  scale=scale' && unscaled.natAbs<10^precision
 | .fixedString length,.scalar (.bytes bs)=>bs.length=length
 | .nullable _,.null=>true
 | .nullable t,v=>admits t v
 | .array t,.array vs=>vs.all fun v=>admits t v
 | .map k t,.map ks vs=>
  ks.length=vs.length && (ks.all fun v=>admits k v) && vs.all fun v=>admits t v
 | .tuple names types,.tuple names' vs=>names=names' && admitsAll types vs
 | _,_=>false

def admitsAll : List ColumnType → List Value → Bool
 | [],[]=>true
 | t::types,v::vs=>admits t v && admitsAll types vs
 | _,_=>false
end

example : admits (.nullable (.base .bool)) .null=true := by rw [admits]

def baseDefault : BaseType → Scalar
 | .bool=>.bool false
 | .int32 | .int64 | .uint32 | .uint64=>.int 0
 | .float32 | .float64=>.float 0
 | .string=>.bytes []
 | .uuid=>.uuid 0

mutual

def typeDefault : ColumnType → Value
 | .base b=>.scalar (baseDefault b)
 | .dateTime64 _ _=>.scalar (.time 0)
 | .decimal _ scale=>.scalar (.decimal 0 scale)
 | .fixedString length=>.scalar (.bytes (List.replicate length 0))
 | .nullable _=>.null
 | .array _=>.array []
 | .map _ _=>.map [] []
 | .tuple names types=>.tuple names (defaults types)

def defaults : List ColumnType → List Value
 | []=>[]
 | t::types=>typeDefault t::defaults types
end

lemma admitsAll_iff (types:List ColumnType) (vs:List Value) :
 admitsAll types vs=true ↔ List.Forall₂ (fun t v=>admits t v=true) types vs := by
 induction types generalizing vs with
 | nil=>cases vs <;> simp [admitsAll]
 | cons t types ih=>cases vs <;> simp [admitsAll,ih]

variable {v:Value}
lemma admits_base {b:BaseType} :
 admits (.base b) v=true ↔ ∃s,v=.scalar s ∧ baseAdmits b s=true := by
 cases v <;> simp [admits]

lemma admits_array : admits (.array t) v=true ↔ ∃vs,v=.array vs ∧ ∀w∈vs,admits t w=true := by
 cases v <;> simp [admits]

lemma admits_map {k:ColumnType} :
 admits (.map k t) v=true ↔ ∃ks vs,v=.map ks vs ∧ ks.length=vs.length ∧
  (∀w∈ks,admits k w=true) ∧ ∀w∈vs,admits t w=true := by
 cases v <;> simp [admits,and_assoc]

lemma admits_tuple : admits (.tuple names types) v=true ↔
  ∃vs,v=.tuple names vs ∧ List.Forall₂ (fun t v=>admits t v=true) types vs := by
 cases v with
 | tuple names' vs=>
  simp only [admits,Bool.and_eq_true,decide_eq_true_eq,admitsAll_iff,Value.tuple.injEq]
  constructor
  · rintro ⟨rfl,h⟩
    exact ⟨vs,⟨rfl,rfl⟩,h⟩
  · rintro ⟨vs',⟨rfl,rfl⟩,h⟩
    exact ⟨rfl,h⟩
 | _=>simp [admits]

lemma admits_nullable : admits (.nullable t) v=true ↔ v=.null ∨ admits t v=true := by
 cases v <;> simp [admits]

lemma lookup_zip {R:ColumnType → Value → Prop} {vs:List Value} (hn:names.Nodup) (h:List.Forall₂ R types vs)
 (hm:(name,t)∈names.zip types) : ∃w,(names.zip vs).lookup name=some w ∧ R t w := by
 induction h generalizing names with
 | nil=>simp at hm
 | @cons t' v types vs hv h ih=>
  cases names with
  | nil=>simp at hm
  | cons first names=>
   obtain ⟨hf,hn⟩:=List.nodup_cons.1 hn
   rw [List.zip_cons_cons,List.mem_cons] at hm
   rw [List.zip_cons_cons,List.lookup_cons]
   rcases hm with heq|hm
   · cases heq
     exact ⟨v,by simp,hv⟩
   · have hne:name≠first:=by
      rintro rfl
      exact hf (List.of_mem_zip hm).1
     have hb:(name == first)=false:=by simpa using hne
     simpa [hb] using ih hn hm

lemma element_admits (hn:names.Nodup) (h:admits (.tuple names types) v=true)
 (hm:(name,t)∈names.zip types) : ∃w,v.element name=some w ∧ admits t w=true := by
 obtain ⟨vs,rfl,hvs⟩:=admits_tuple.1 h
 exact lookup_zip hn hvs hm

lemma defaults_eq (types:List ColumnType) : defaults types=types.map typeDefault := by
 induction types with
 | nil=>rfl
 | cons t types ih=>rw [defaults,ih,List.map_cons]

lemma element_default (hn:names.Nodup) (hm:(name,t)∈names.zip types) :
 (typeDefault (.tuple names types)).element name=some (typeDefault t) := by
 have hv:List.Forall₂ (fun t v=>v=typeDefault t) types (defaults types):=by
  rw [defaults_eq,List.forall₂_map_right_iff,List.forall₂_same]
  exact fun _ _=>rfl
 obtain ⟨w,hw,rfl⟩:=lookup_zip hn hv hm
 exact hw

mutual

lemma admits_default : (t:ColumnType) → admits t (typeDefault t)=true
 | .base b=>by cases b <;> decide
 | .dateTime64 _ _=>rfl
 | .decimal precision _=>by
  have hp:0<10^precision:=Nat.pow_pos (by decide)
  simp [typeDefault,admits,hp]
 | .fixedString _=>by simp [typeDefault,admits]
 | .nullable _=>rfl
 | .array _=>rfl
 | .map _ _=>rfl
 | .tuple names types=>by
  simp [typeDefault,admits,admitsAll_defaults types]

lemma admitsAll_defaults : (types:List ColumnType) → admitsAll types (defaults types)=true
 | []=>rfl
 | t::types=>by simp [defaults,admitsAll,admits_default t,admitsAll_defaults types]
end
end InvariantProtocol.SqlValue
