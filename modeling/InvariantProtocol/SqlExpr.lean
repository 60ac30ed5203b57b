import InvariantProtocol.SqlText
import Mathlib.Data.Int.Notation
/-! Scalar SQL expressions with lambdas: syntax, text and a reader. Parentheses are kept in the syntax,
so that the text of an expression determines it. -/
namespace InvariantProtocol.SqlExpr
open SqlText

inductive Function where
 | isNull | isNotNull | assumeNotNull | length | mapKeys | mapValues | arrayDistinct
 | isValidUTF8 | isValidJSON | toInt64 | toUnixTimestamp64Nano
 deriving DecidableEq

inductive Expr where
 | name (s:String)
 | quoted (s:String)
 | hole (s:String)
 | int (n:ℤ)
 | bool (b:Bool)
 | null
 | text (s:String)
 | emptyArray
 | emptyMap
 | apply (f:Function) (a:Expr)
 | tupleElement (a:Expr) (element:String)
 | accurateCast (a:Expr) (type:String)
 | arrayAll (x:String) (body a:Expr)
 | paren (a:Expr)
 | eq (a b:Expr)
 | isIn (a:Expr) (ns:List ℤ)
 | not (a:Expr)
 | and (a b:Expr)
 | or (a b:Expr)
 deriving DecidableEq

def Function.name : Function → String
 | .isNull=>"isNull"
 | .isNotNull=>"isNotNull"
 | .assumeNotNull=>"assumeNotNull"
 | .length=>"length"
 | .mapKeys=>"mapKeys"
 | .mapValues=>"mapValues"
 | .arrayDistinct=>"arrayDistinct"
 | .isValidUTF8=>"isValidUTF8"
 | .isValidJSON=>"isValidJSON"
 | .toInt64=>"toInt64"
 | .toUnixTimestamp64Nano=>"toUnixTimestamp64Nano"

def functions : List Function :=
 [.isNull,.isNotNull,.assumeNotNull,.length,.mapKeys,.mapValues,.arrayDistinct,
  .isValidUTF8,.isValidJSON,.toInt64,.toUnixTimestamp64Nano]

def Function.ofName (name:String) : Option Function:=functions.find? (·.name=name)

lemma Function.ofName_name (f:Function) : ofName f.name=some f := by cases f <;> decide

def reserved : List String:=["true","false","NULL","NOT","AND","OR","IN"]

/-- 0 for what needs no parentheses anywhere, then comparison, `NOT`, `AND` and `OR`. -/
def Expr.level : Expr → ℕ
 | .eq _ _=>1
 | .isIn _ _=>1
 | .not _=>2
 | .and _ _=>3
 | .or _ _=>4
 | _=>0

def Expr.render : Expr → String
 | .name s=>s
 | .quoted s=>quoteName s
 | .hole s=>"\x7b"++s++"\x7d"
 | .int n=>toString n
 | .bool b=>if b then "true" else "false"
 | .null=>"NULL"
 | .text s=>quoteText s
 | .emptyArray=>"[]"
 | .emptyMap=>"map()"
 | .apply f a=>call f.name a.render
 | .tupleElement a element=>call "tupleElement" (a.render++", "++quoteText element)
 | .accurateCast a type=>call "accurateCast" (a.render++", "++quoteText type)
 | .arrayAll x body a=>call "arrayAll" (x++" -> "++body.render++", "++a.render)
 | .paren a=>"("++a.render++")"
 | .eq a b=>a.render++" = "++b.render
 | .isIn a ns=>a.render++" IN ("++String.intercalate ", " (ns.map toString)++")"
 | .not a=>"NOT "++a.render
 | .and a b=>a.render++" AND "++b.render
 | .or a b=>a.render++" OR "++b.render

def intTokens (n:ℤ) : List Token :=
 if n<0 then [.symbol '-',.number n.natAbs] else [.number n.natAbs]

/-- The elements of an integer list up to its closing parenthesis. -/
def intsTokens : List ℤ → List Token
 | []=>[]
 | [n]=>intTokens n++[.symbol ')']
 | n::ns=>intTokens n ++ .symbol ',' :: intsTokens ns

def Expr.tokens : Expr → List Token
 | .name s=>[.word s]
 | .quoted s=>[.quoted s]
 | .hole s=>[.hole s]
 | .int n=>intTokens n
 | .bool b=>[.word (if b then "true" else "false")]
 | .null=>[.word "NULL"]
 | .text s=>[.text s]
 | .emptyArray=>[.symbol '[',.symbol ']']
 | .emptyMap=>[.word "map",.symbol '(',.symbol ')']
 | .apply f a=>[.word f.name,.symbol '(']++a.tokens++[.symbol ')']
 | .tupleElement a element=>
  [.word "tupleElement",.symbol '(']++a.tokens++[.symbol ',',.text element,.symbol ')']
 | .accurateCast a type=>
  [.word "accurateCast",.symbol '(']++a.tokens++[.symbol ',',.text type,.symbol ')']
 | .arrayAll x body a=>
  [.word "arrayAll",.symbol '(',.word x,.arrow]++body.tokens ++ .symbol ',' :: a.tokens ++
   [.symbol ')']
 | .paren a=>.symbol '(' :: a.tokens++[.symbol ')']
 | .eq a b=>a.tokens ++ .symbol '=' :: b.tokens
 | .isIn a ns=>a.tokens++[.word "IN",.symbol '(']++intsTokens ns
 | .not a=>.word "NOT" :: a.tokens
 | .and a b=>a.tokens ++ .word "AND" :: b.tokens
 | .or a b=>a.tokens ++ .word "OR" :: b.tokens

/-- Names are words of their own and operands bind more tightly than their operator. -/
def Expr.WellFormed : Expr → Prop
 | .name s=>isWord s=true ∧ s∉reserved
 | .hole s=>isWord s=true
 | .apply _ a=>a.WellFormed
 | .tupleElement a _=>a.WellFormed
 | .accurateCast a _=>a.WellFormed
 | .arrayAll x body a=>isWord x=true ∧ body.WellFormed ∧ a.WellFormed
 | .paren a=>a.WellFormed
 | .eq a b=>a.WellFormed ∧ b.WellFormed ∧ a.level=0 ∧ b.level=0
 | .isIn a ns=>a.WellFormed ∧ a.level=0 ∧ ns≠[]
 | .not a=>a.WellFormed ∧ a.level≤1
 | .and a b=>a.WellFormed ∧ b.WellFormed ∧ a.level≤2 ∧ b.level≤2
 | .or a b=>a.WellFormed ∧ b.WellFormed ∧ a.level≤3 ∧ b.level≤3
 | _=>True

def Expr.depth : Expr → ℕ
 | .apply _ a=>a.depth+1
 | .tupleElement a _=>a.depth+1
 | .accurateCast a _=>a.depth+1
 | .arrayAll _ body a=>max body.depth a.depth+1
 | .paren a=>a.depth+1
 | .eq a b=>max a.depth b.depth
 | .isIn a _=>a.depth
 | .not a=>a.depth
 | .and a b=>max a.depth b.depth
 | .or a b=>max a.depth b.depth
 | _=>0

abbrev ExprReader:=List Token → Option (Expr×List Token)

def readInts : List Token → Option (List ℤ×List Token)
 | .number n :: .symbol ')' :: ts=>some ([(n:ℤ)],ts)
 | .symbol '-' :: .number n :: .symbol ')' :: ts=>some ([-(n:ℤ)],ts)
 | .number n :: .symbol ',' :: ts=>do
  let (ns,ts) ← readInts ts
  some ((n:ℤ)::ns,ts)
 | .symbol '-' :: .number n :: .symbol ',' :: ts=>do
  let (ns,ts) ← readInts ts
  some (-(n:ℤ)::ns,ts)
 | _=>none

def readWord (w:String) : Option Expr :=
 if w = "true" then some (.bool true)
 else if w = "false" then some (.bool false)
 else if w = "NULL" then some .null
 else if w∈reserved then none
 else some (.name w)

def readCall (inner:ExprReader) (w:String) (ts:List Token) : Option (Expr×List Token) :=
 match w,ts with
 | "map",.symbol ')' :: ts=>some (.emptyMap,ts)
 | "tupleElement",ts=>do
  let (a,.symbol ',' :: .text s :: .symbol ')' :: ts) ← inner ts | none
  some (.tupleElement a s,ts)
 | "accurateCast",ts=>do
  let (a,.symbol ',' :: .text s :: .symbol ')' :: ts) ← inner ts | none
  some (.accurateCast a s,ts)
 | "arrayAll",.word x :: .arrow::ts=>do
  let (body,.symbol ',' :: ts) ← inner ts | none
  let (a,.symbol ')' :: ts) ← inner ts | none
  some (.arrayAll x body a,ts)
 | w,ts=>do
  let f ← Function.ofName w
  let (a,.symbol ')' :: ts) ← inner ts | none
  some (.apply f a,ts)

def readPrimary (inner:ExprReader) : ExprReader
 | .number n::ts=>some (.int n,ts)
 | .symbol '-' :: .number n::ts=>some (.int (-n),ts)
 | .text s::ts=>some (.text s,ts)
 | .quoted s::ts=>some (.quoted s,ts)
 | .hole s::ts=>some (.hole s,ts)
 | .symbol '[' :: .symbol ']' :: ts=>some (.emptyArray,ts)
 | .symbol '(' :: ts=>do
  let (a,.symbol ')' :: ts) ← inner ts | none
  some (.paren a,ts)
 | .word w :: .symbol '(' :: ts=>readCall inner w ts
 | .word w::ts=>(readWord w).map fun a=>(a,ts)
 | _=>none

def readComparison (operand:ExprReader) : ExprReader:=fun ts=>do
 match ← operand ts with
 | (a,.symbol '=' :: ts)=>
  let (b,ts) ← operand ts
  some (.eq a b,ts)
 | (a,.word "IN" :: .symbol '(' :: ts)=>
  let (ns,ts) ← readInts ts
  some (.isIn a ns,ts)
 | (a,ts)=>some (a,ts)

def readNegation (operand:ExprReader) : ExprReader:=fun ts=>
 match operand ts,ts with
 | none,.word "NOT" :: ts=>(operand ts).map fun (a,ts)=>(.not a,ts)
 | result,_=>result

def readBinary (keyword:String) (operator:Expr → Expr → Expr) (operand:ExprReader) :
  ExprReader:=fun ts=>do
 match ← operand ts with
 | (a,.word w::ts)=>
  if w=keyword then
   let (b,ts) ← operand ts
   some (operator a b,ts)
  else some (a,.word w::ts)
 | (a,ts)=>some (a,ts)

/-- The operators of each level, over operands of the level below. -/
def readOperator : ℕ → ExprReader → ExprReader
 | 1=>readComparison
 | 2=>readNegation
 | 3=>readBinary "AND" .and
 | 4=>readBinary "OR" .or
 | _=>id

/-- `inner` reads what stands in parentheses. -/
def readLevel (inner:ExprReader) : ℕ → ExprReader
 | 0=>readPrimary inner
 | L+1=>readOperator (L+1) (readLevel inner L)

def readExpr : ℕ → ExprReader
 | 0=>fun _=>none
 | fuel+1=>readLevel (readExpr fuel) 4

def parseExpr (s:String) : Option Expr:=do
 let ts ← lex s
 let (e,[]) ← readExpr (ts.length+1) ts | none
 some e
end InvariantProtocol.SqlExpr
