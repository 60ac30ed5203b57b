import Mathlib.Algebra.Group.Int.Defs
import Mathlib.Algebra.Group.Nat.Defs
import Mathlib.Data.List.Basic
/-! The parts of Go's `strings`, `strconv` and `unicode` packages used below, over valid UTF-8 and at
one-character separators. -/
namespace InvariantProtocol.GoText
open List

def split (sep:Char) (s:String) : List String:=(s.toList.splitOn sep).map String.ofList

def cutLast (sep:Char) (s:String) : Option (String×String) :=
 if sep∈s.toList then
  let reversed:=s.toList.reverse
  some (String.ofList (reversed.dropWhile (· ≠ sep)).tail.reverse,
   String.ofList (reversed.takeWhile (· ≠ sep)).reverse)
 else none

def afterLast (sep:Char) (s:String) : String :=
 String.ofList (s.toList.reverse.takeWhile (· ≠ sep)).reverse

def startsWith (start s:String) : Bool:=start.toList.isPrefixOf s.toList

def trimStart (start s:String) : String :=
 if startsWith start s then String.ofList (s.toList.drop start.toList.length) else s

/-- `skip` characters of a match are still to be passed over. -/
def replaceChars (old new:List Char) : ℕ → List Char → List Char
 | _,[]=>[]
 | skip+1,_::cs=>replaceChars old new skip cs
 | 0,c::cs=>
  if old.isPrefixOf (c::cs) then new++replaceChars old new (old.length-1) cs
  else c::replaceChars old new 0 cs

def replaceAll (s old new:String) : String :=
 String.ofList (replaceChars old.toList new.toList 0 s.toList)

/-- `NewReplacer(..).Replace`, for patterns of one character. -/
def replaceRunes (patterns:List (String×String)) (s:String) : String :=
 String.ofList (s.toList.flatMap fun c=>
  ((patterns.lookup (String.singleton c)).map String.toList).getD [c])

def isControl (c:Char) : Bool:=c.val≤0x1F || (0x7F≤c.val && c.val≤0x9F)

def trimChar (c:Char) (cs:List Char) : List Char :=
 ((cs.dropWhile (· = c)).reverse.dropWhile (· = c)).reverse

def isSpace (c:Char) : Bool :=
 c.val∈([0x09,0x0A,0x0B,0x0C,0x0D,0x20,0x85,0xA0,0x1680,0x2028,0x2029,0x202F,
  0x205F,0x3000] : List UInt32) || (0x2000≤c.val && c.val≤0x200A)

def trimSpace (s:String) : String :=
 String.ofList ((s.toList.dropWhile isSpace).reverse.dropWhile isSpace).reverse

def formatInt (n:ℤ) : String:=toString n

def parseDigits (cs:List Char) : Option ℕ :=
 if cs≠[] ∧ cs.all Char.isDigit then some (Nat.ofDigitChars 10 cs 0) else none

/-- `none` is the error of `ParseInt`, for syntax and for range. -/
def parseInt (bits:ℕ) (s:String) : Option ℤ :=
 match s.toList with
 | '-' :: cs=>(parseDigits cs).bind fun n=>if n≤2^(bits-1) then some (-n) else none
 | '+' :: cs=>(parseDigits cs).bind fun n=>if n<2^(bits-1) then some n else none
 | cs=>(parseDigits cs).bind fun n=>if n<2^(bits-1) then some n else none

lemma split_append (sep:Char) (s t:String) :
 split sep (s++String.singleton sep++t)=split sep s++split sep t := by
 simp only [split,String.toList_append,String.toList_singleton,append_assoc,singleton_append,
  splitOn_append_cons_self,map_append]

lemma split_eq_singleton (sep:Char) (s:String) (h:sep∉s.toList) : split sep s=[s] := by
 simp [split,splitOn_eq_singleton h]

lemma takeWhile_ne_append (sep:Char) (xs ys:List Char) (h:sep∉xs) :
 (xs++sep::ys).takeWhile (· ≠ sep)=xs := by
 have hne:∀x∈xs,decide (x≠sep)=true:=fun x hx=>by
  simpa using fun e : x=sep=>h (e ▸ hx)
 simp only [takeWhile_append_of_pos hne,takeWhile_cons,ne_eq,not_true_eq_false,decide_false,
  Bool.false_eq_true,if_false,append_nil]

lemma dropWhile_ne_append (sep:Char) (xs ys:List Char) (h:sep∉xs) :
 (xs++sep::ys).dropWhile (· ≠ sep)=sep::ys := by
 have hne:∀x∈xs,decide (x≠sep)=true:=fun x hx=>by
  simpa using fun e : x=sep=>h (e ▸ hx)
 simp only [dropWhile_append_of_pos hne,dropWhile_cons,ne_eq,not_true_eq_false,decide_false,
  Bool.false_eq_true,if_false]

lemma reverse_append_sep (sep:Char) (s t:String) : (s++String.singleton sep++t).toList.reverse =
  t.toList.reverse++sep::s.toList.reverse := by
 simp

lemma cutLast_append (sep:Char) (s t:String) (h:sep∉t.toList) :
 cutLast sep (s++String.singleton sep++t)=some (s,t) := by
 have hm:sep∈(s++String.singleton sep++t).toList:=by simp
 have ht:sep∉t.toList.reverse:=by simpa using h
 simp only [cutLast,hm,if_true,reverse_append_sep,takeWhile_ne_append sep _ _ ht,
  dropWhile_ne_append sep _ _ ht,tail_cons,reverse_reverse,String.ofList_toList]

lemma cutLast_eq_none (sep:Char) (s:String) (h:sep∉s.toList) :
 cutLast sep s=none := by simp [cutLast,h]

lemma afterLast_append (sep:Char) (s t:String) (h:sep∉t.toList) :
 afterLast sep (s++String.singleton sep++t)=t := by
 have ht:sep∉t.toList.reverse:=by simpa using h
 simp only [afterLast,reverse_append_sep,takeWhile_ne_append sep _ _ ht,reverse_reverse,
  String.ofList_toList]

lemma afterLast_eq_self (sep:Char) (s:String) (h:sep∉s.toList) : afterLast sep s=s := by
 have hne:∀x∈s.toList.reverse,decide (x≠sep)=true:=fun x hx=>by
  simpa using fun e : x=sep=>h (by simpa [e] using hx)
 have hs:(s.toList.reverse++[]).takeWhile (· ≠ sep)=s.toList.reverse++[]:=
  takeWhile_append_of_pos hne
 rw [append_nil] at hs
 simp only [afterLast,hs,reverse_reverse,String.ofList_toList]

lemma startsWith_append (start s:String) : startsWith start (start++s)=true := by
 simp [startsWith]

lemma trimStart_append (start s:String) : trimStart start (start++s)=s := by
 simp [trimStart,startsWith_append]

lemma formatInt_toList (n:ℕ) : (formatInt n).toList=Nat.toDigits 10 n := by
 change (Nat.repr n).toList=_
 exact Nat.toList_repr

lemma formatInt_isDigit (n:ℕ) (c:Char) (h:c∈(formatInt n).toList) : c.isDigit := by
 rw [formatInt_toList] at h
 exact Nat.isDigit_of_mem_toDigits (by decide) (by decide) h

lemma parseDigits_toDigits (n:ℕ) : parseDigits (Nat.toDigits 10 n)=some n := by
 have ha:(Nat.toDigits 10 n).all Char.isDigit=true:=by
  rw [all_eq_true]
  intro c hc
  exact Nat.isDigit_of_mem_toDigits (by decide) (by decide) hc
 simp only [parseDigits,ne_eq,Nat.toDigits_ne_nil,not_false_eq_true,ha,and_self,if_true,
  Nat.ofDigitChars_ten_toDigits]

lemma parseInt_formatInt (bits n:ℕ) (h:n<2^(bits-1)) : parseInt bits (formatInt n)=some (n:ℤ) := by
 have hs:∀c,c∈Nat.toDigits 10 n → c ≠ '-' ∧ c ≠ '+':=by
  intro c hc
  have hd:=Nat.isDigit_of_mem_toDigits (by decide) (by decide) hc
  constructor <;> rintro rfl <;> revert hd <;> decide
 unfold parseInt
 rw [formatInt_toList]
 split
 · next cs hcs=>exact absurd rfl (hs '-' (by rw [hcs];simp)).1
 · next cs hcs=>exact absurd rfl (hs '+' (by rw [hcs];simp)).2
 · simp [parseDigits_toDigits,h]

lemma parseInt_formatInt_neg (bits n:ℕ) (h:n+1≤2^(bits-1)) :
 parseInt bits (formatInt (Int.negSucc n))=some (Int.negSucc n) := by
 have ht:(formatInt (Int.negSucc n)).toList = '-' :: Nat.toDigits 10 (n+1):=by
  change ("-"++Nat.repr (n+1)).toList=_
  rw [String.toList_append,Nat.toList_repr]
  rfl
 unfold parseInt
 rw [ht]
 simp only [parseDigits_toDigits,Option.bind_some,h,if_true]
 rfl

section
variable {marker:Char} {old new:List Char}
lemma replaceChars_skip (xs ys:List Char) :
 replaceChars old new xs.length (xs++ys)=replaceChars old new 0 ys := by
 induction xs with
 | nil=>rfl
 | cons x xs ih=>exact ih

lemma replaceChars_of_not_mem {xs:List Char} (h:marker∉xs) (ys:List Char) :
 replaceChars (marker::old) new 0 (xs++ys) =
  xs++replaceChars (marker::old) new 0 ys := by
 induction xs with
 | nil=>rfl
 | cons x xs ih=>
  have hne:marker≠x:=ne_of_not_mem_cons h
  simp [replaceChars,hne,ih (not_mem_of_not_mem_cons h)]

lemma replaceChars_match (ys:List Char) : replaceChars (marker::old) new 0 (marker::old++ys) =
  new++replaceChars (marker::old) new 0 ys := by
 have hm:(marker::old).isPrefixOf (marker::(old++ys))=true:=by simp
 rw [cons_append,replaceChars,if_pos hm]
 exact congrArg (new ++ ·) (replaceChars_skip old ys)

lemma replaceChars_flatMap {f g:Char → List Char}
 (h:∀c rest,replaceChars old new 0 (f c++rest)=g c++replaceChars old new 0 rest) (xs:List Char) :
 replaceChars old new 0 (xs.flatMap f)=xs.flatMap g := by
 induction xs with
 | nil=>rfl
 | cons x xs ih=>rw [flatMap_cons,flatMap_cons,h,ih]
end

/-- Whatever follows, replacing `old` by `new` turns the text `s` into `t`. -/
def Becomes (old new s t:String) : Prop :=
 ∀rest,replaceChars old.toList new.toList 0 (s.toList++rest) =
  t.toList++replaceChars old.toList new.toList 0 rest

lemma Becomes.append {old new s t s' t':String} (h:Becomes old new s t) (h':Becomes old new s' t') :
 Becomes old new (s++s') (t++t') := by
 intro rest
 simp only [String.toList_append,append_assoc]
 rw [h,h']

lemma Becomes.replaceAll {old new s t:String} (h:Becomes old new s t) : replaceAll s old new=t := by
 have hnil:=h []
 rw [append_nil,replaceChars,append_nil] at hnil
 rw [GoText.replaceAll,hnil,String.ofList_toList]
end InvariantProtocol.GoText
