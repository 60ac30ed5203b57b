import Mathlib.Algebra.Group.Int.Defs
import Mathlib.Algebra.Group.Nat.Defs
import Mathlib.Algebra.GroupWithZero.Nat
import Mathlib.Data.List.Basic
import Mathlib.Data.List.Nodup
/-! JSON documents as their texts spell them: numbers keep their literals, objects their members in
order, and a lone surrogate in a string stands for itself. -/
namespace InvariantProtocol.JsonValue

abbrev Text:=List ℕ

def text (s:String) : Text:=s.toList.map Char.toNat

def isUnicode (s:Text) : Bool:=s.all fun n=>decide n.isValidChar

lemma isUnicode_text (s:String) : isUnicode (text s)=true := by
 simp only [isUnicode,text,List.all_map,List.all_eq_true,Function.comp_apply,decide_eq_true_eq]
 intro c _
 exact c.valid

instance neZero_ten : NeZero 10:=⟨by decide⟩

structure Number where
 negative : Bool:=false
 whole : ℕ
 fraction : List (Fin 10):=[]
 exponent : Option ℤ:=none

def Number.isInteger (n:Number) : Bool:=n.fraction.isEmpty && n.exponent.isNone

def Number.integer (n:Number) : ℤ:=if n.negative then -n.whole else n.whole

def Number.ofInt (i:ℤ) : Number:={ negative:=decide (i<0),whole:=i.natAbs }

@[simp] lemma Number.isInteger_ofInt (i:ℤ) : (Number.ofInt i).isInteger=true := rfl

@[simp] lemma Number.integer_ofInt (i:ℤ) : (Number.ofInt i).integer=i := by
 unfold Number.ofInt Number.integer
 by_cases h : i<0
 · simp only [h,decide_true,if_true]
   omega
 · simp only [h,decide_false,Bool.false_eq_true,if_false]
   omega

inductive Value where
 | null
 | bool (b:Bool)
 | number (n:Number)
 | string (s:Text)
 | array (items:List Value)
 | object (members:List (Text×Value))

abbrev Members:=List (Text×Value)

def Value.isString : Value → Bool
 | .string _=>true
 | _=>false

def Value.isObject : Value → Bool
 | .object _=>true
 | _=>false

def Value.isNull : Value → Bool
 | .null=>true
 | _=>false

/-- The value of the last member of this name, as all decoders of objects have it. -/
def get (members:Members) (name:Text) : Option Value:=members.reverse.lookup name

lemma get_append (members rest:Members) (name:Text) :
 get (members++rest) name=(get rest name).or (get members name) := by
 unfold get
 rw [List.reverse_append,List.lookup_append]

lemma get_singleton (m:Text×Value) (name:Text) : get [m] name=if m.1=name then some m.2 else none := by
 obtain ⟨key,v⟩:=m
 unfold get
 by_cases h : key=name
 · simp [h]
 · have hn:(name == key)=false:=beq_false_of_ne (Ne.symm h)
   rw [List.reverse_singleton,List.lookup_cons,hn,if_neg h]
   rfl

lemma get_snoc (members:Members) (m:Text×Value) (name:Text) :
 get (members++[m]) name=if m.1=name then some m.2 else get members name := by
 rw [get_append,get_singleton]
 split <;> rfl

lemma get_eq_none {members:Members} {name:Text} : get members name=none ↔ ∀m∈members,m.1≠name := by
 unfold get
 rw [List.lookup_eq_none_iff]
 constructor
 · intro h m hm heq
   have hne:=h m (List.mem_reverse.2 hm)
   simp [heq] at hne
 · intro h m hm
   exact bne_iff_ne.2 (Ne.symm (h m (List.mem_reverse.1 hm)))

lemma mem_of_get {members:Members} {name:Text} {v:Value} (h:get members name=some v) :
 (name,v)∈members := by
 unfold get at h
 obtain ⟨before,after,heq,-⟩:=List.lookup_eq_some_iff.1 h
 rw [←List.mem_reverse,heq]
 simp

lemma get_of_mem {members:Members} (hn:(members.map Prod.fst).Nodup) {m:Text×Value}
 (hm:m∈members) : get members m.1=some m.2 := by
 cases h : get members m.1 with
 | none=>exact absurd rfl (get_eq_none.1 h m hm)
 | some v=>
  have heq:=List.inj_on_of_nodup_map hn (mem_of_get h) hm rfl
  rw [←heq]
end InvariantProtocol.JsonValue
