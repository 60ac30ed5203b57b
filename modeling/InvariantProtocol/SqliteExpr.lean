import InvariantProtocol.ByteText
import InvariantProtocol.GoText
import Mathlib.Data.Int.Notation
import Mathlib.Data.List.Lex
/-! SQLite expressions over one column with a TEXT value: their text and their value. -/
namespace InvariantProtocol.SqliteExpr
open ByteText

inductive Comparison where
 | eq | ne | lt | le | gt

inductive Function where
 | typeof | length | instr | char | substr | replace

/-- Parentheses are part of the syntax. `COLLATE` binds most tightly, then `-`, the orderings, the other
comparisons, `AND` and `OR`, each from the left. -/
inductive Expr where
 | column
 | text (s:List Char)
 | number (n:ℕ)
 | negative (n:ℕ)
 | call₁ (f:Function) (a:Expr)
 | call₂ (f:Function) (a b:Expr)
 | call₃ (f:Function) (a b c:Expr)
 | collateBinary (a:Expr)
 | sub (a b:Expr)
 | compare (op:Comparison) (a b:Expr)
 | notGlob (a pattern:Expr)
 | between (a low high:Expr)
 | and (a b:Expr)
 | or (a b:Expr)
 | caseWhen (condition a b:Expr)
 | paren (a:Expr)

def Comparison.render : Comparison → String
 | .eq=>" = "
 | .ne=>" != "
 | .lt=>" < "
 | .le=>" <= "
 | .gt=>" > "

def Function.render : Function → String
 | .typeof=>"typeof("
 | .length=>"length("
 | .instr=>"instr("
 | .char=>"char("
 | .substr=>"substr("
 | .replace=>"replace("

/-- No literal here holds an apostrophe. -/
def Expr.render (name:String) : Expr → String
 | .column=>name
 | .text s=>"'"++String.ofList s++"'"
 | .number n=>toString n
 | .negative n=>"-"++toString n
 | .call₁ f a=>f.render++a.render name++")"
 | .call₂ f a b=>f.render++a.render name++", "++b.render name++")"
 | .call₃ f a b c=>f.render++a.render name++", "++b.render name++", "++c.render name++")"
 | .collateBinary a=>a.render name++" COLLATE BINARY"
 | .sub a b=>a.render name++" - "++b.render name
 | .compare op a b=>a.render name++op.render++b.render name
 | .notGlob a pattern=>a.render name++" NOT GLOB "++pattern.render name
 | .between a low high=>a.render name++" BETWEEN "++low.render name++" AND "++high.render name
 | .and a b=>a.render name++" AND "++b.render name
 | .or a b=>a.render name++" OR "++b.render name
 | .caseWhen condition a b=>
  "CASE WHEN "++condition.render name++" THEN "++a.render name++" ELSE "++b.render name++" END"
 | .paren a=>"("++a.render name++")"

example : Expr.render "c" (.paren .column) = "(c)" := by rw [Expr.render,Expr.render]; rfl

inductive Value where
 | int (n:ℤ)
 | text (s:List Char)

def Value.ofBool (b:Bool) : Value:=.int (if b then 1 else 0)

def Value.toBool : Value → Option Bool
 | .int n=>some (n≠0)
 | .text _=>none

/-- A text as the functions see it that stop at a NUL. -/
def beforeNul (s:List Char) : List Char:=s.takeWhile (· ≠ '\x00')

def substr (s:List Char) (position:ℤ) (length:Option ℤ) : List Char :=
 let s:=beforeNul s
 -- where it begins, and by how much less is taken for a beginning in front of the text
 let first:=if position > 0 then position-1 else if position<0 then position+s.length else -1
 let lost:=max (-first) 0
 let first:=max first 0
 match length with
 | none=>s.drop first.toNat
 | some length=>
  if length<0 then (s.take first.toNat).drop (first+length).toNat
  else (s.drop first.toNat).take (length-lost).toNat

/-- The position of the first occurrence, counted from one, or zero. -/
def instr (needle:List Char) : ℕ → List Char → ℕ
 | at_,[]=>if needle=[] then at_+1 else 0
 | at_,c::cs=>if needle.isPrefixOf (c::cs) then at_+1 else instr needle (at_+1) cs

inductive GlobItem where
 | any
 | one
 | oneOf (negated:Bool) (ranges:List (Char×Char))
 | literal (c:Char)

def readRanges : List Char → Option (List (Char×Char)×List Char)
 | []=>none
 | ']' :: cs=>some ([],cs)
 | a :: '-' :: b::cs=>
  if b = ']' then some ([(a,a),('-','-')],cs)
  else (readRanges cs).map fun (ranges,cs)=>((a,b)::ranges,cs)
 | a::cs=>(readRanges cs).map fun (ranges,cs)=>((a,a)::ranges,cs)

/-- A pattern, one item for each step of the fuel; a bracket that is not closed matches nothing. -/
def readGlob : ℕ → List Char → Option (List GlobItem)
 | 0,_=>none
 | _+1,[]=>some []
 | n+1,'*' :: cs=>(readGlob n cs).map (.any :: ·)
 | n+1,'?' :: cs=>(readGlob n cs).map (.one :: ·)
 | n+1,'[' :: '^' :: cs=>
  (readRanges cs).bind fun (ranges,cs)=>(readGlob n cs).map (.oneOf true ranges :: ·)
 | n+1,'[' :: cs=>
  (readRanges cs).bind fun (ranges,cs)=>(readGlob n cs).map (.oneOf false ranges :: ·)
 | n+1,c::cs=>(readGlob n cs).map (.literal c :: ·)

def inRanges (ranges:List (Char×Char)) (c:Char) : Bool :=
 ranges.any fun range=>range.1≤c && c≤range.2

def globMatches : List GlobItem → List Char → Bool
 | [],s=>s.isEmpty
 | .any::items,s=>s.tails.any fun rest=>globMatches items rest
 | .one::items,s=>s.head?.any fun _=>globMatches items s.tail
 | .oneOf negated ranges::items,s=>
  s.head?.any fun c=>(inRanges ranges c != negated) && globMatches items s.tail
 | .literal d::items,s=>s.head?.any fun c=>c=d && globMatches items s.tail

def glob (pattern s:List Char) : Bool :=
 (readGlob (pattern.length+1) pattern).any fun items=>globMatches items (beforeNul s)

/-- The `BINARY` collation: `memcmp` of the UTF-8 encodings. -/
def compareTexts (op:Comparison) (a b:List Char) : Bool :=
 match op with
 | .eq=>utf8 a=utf8 b
 | .ne=>utf8 a≠utf8 b
 | .lt=>utf8 a<utf8 b
 | .le=>¬ utf8 b<utf8 a
 | .gt=>utf8 b<utf8 a

def compareInts (op:Comparison) (a b:ℤ) : Bool :=
 match op with
 | .eq=>a=b
 | .ne=>a≠b
 | .lt=>a<b
 | .le=>a≤b
 | .gt=>b<a

/-- Integers come before texts. -/
def compareValues (op:Comparison) : Value → Value → Bool
 | .int a,.int b=>compareInts op a b
 | .text a,.text b=>compareTexts op a b
 | .int _,.text _=>match op with
  | .lt | .le | .ne=>true
  | _=>false
 | .text _,.int _=>match op with
  | .gt | .ne=>true
  | _=>false

def apply₁ : Function → Value → Option Value
 | .typeof,.int _=>some (.text "integer".toList)
 | .typeof,.text _=>some (.text "text".toList)
 | .length,.text s=>some (.int (beforeNul s).length)
 | .char,.int n=>some (.text [Char.ofNat n.toNat])
 | _,_=>none

def apply₂ : Function → Value → Value → Option Value
 | .instr,.text s,.text needle=>some (.int (instr needle 0 s))
 | .substr,.text s,.int position=>some (.text (substr s position none))
 | _,_,_=>none

def apply₃ : Function → Value → Value → Value → Option Value
 | .substr,.text s,.int position,.int length=>some (.text (substr s position (some length)))
 | .replace,.text s,.text (c::old),.text new=>some (.text (GoText.replaceChars (c::old) new 0 s))
 | _,_,_,_=>none

/-- The value for a column with this text; `none` is a conversion or a use that is not modelled. No
expression here is NULL. -/
def Expr.eval (v:List Char) : Expr → Option Value
 | .column=>some (.text v)
 | .text s=>some (.text s)
 | .number n=>some (.int n)
 | .negative n=>some (.int (-n))
 | .call₁ f a=>do apply₁ f (← a.eval v)
 | .call₂ f a b=>do apply₂ f (← a.eval v) (← b.eval v)
 | .call₃ f a b c=>do apply₃ f (← a.eval v) (← b.eval v) (← c.eval v)
 | .collateBinary a=>a.eval v
 | .sub a b=>do
  let .int m ← a.eval v | none
  let .int n ← b.eval v | none
  some (.int (m-n))
 | .compare op a b=>do some (.ofBool (compareValues op (← a.eval v) (← b.eval v)))
 | .notGlob a pattern=>do
  let .text s ← a.eval v | none
  let .text pattern ← pattern.eval v | none
  some (.ofBool !glob pattern s)
 | .between a low high=>do
  let x ← a.eval v
  let below:=compareValues .lt x (← low.eval v)
  some (.ofBool (!below && compareValues .le x (← high.eval v)))
 | .and a b=>do some (.ofBool ((← (← a.eval v).toBool) && (← (← b.eval v).toBool)))
 | .or a b=>do some (.ofBool ((← (← a.eval v).toBool) || (← (← b.eval v).toBool)))
 | .caseWhen condition a b=>do if ← (← condition.eval v).toBool then a.eval v else b.eval v
 | .paren a=>a.eval v

/-- A CHECK holds unless it is zero. -/
def Expr.holds (check:Expr) (v:List Char) : Prop := ∃value,check.eval v=some value ∧ value≠.int 0

lemma eval_length {v w:List Char} {a:Expr} (ha:a.eval v=some (.text w)) :
 (Expr.call₁ .length a).eval v=some (.int (beforeNul w).length) := by
 simp [Expr.eval,ha,apply₁]
end InvariantProtocol.SqliteExpr
