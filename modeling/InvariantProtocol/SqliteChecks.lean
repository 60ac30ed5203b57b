import InvariantProtocol.SqliteExpr
import InvariantProtocol.SqliteSchema
namespace InvariantProtocol.SqliteChecks
open List ByteText SqliteExpr SqliteSchema

def notDigits : List Char:=['*','[','^','0','-','9',']','*']

def notHex : List Char:=['*','[','^','0','-','9','a','-','f',']','*']

def allOf (first:Expr) (conditions:List Expr) : Expr:=conditions.foldl .and first

def isText : Expr:=.compare .eq (.call₁ .typeof .column) (.text ['t','e','x','t'])

def nulFree (a:Expr) : Expr:=.compare .eq (.call₂ .instr a (.call₁ .char (.number 0))) (.number 0)

def unsigned (a:Expr) : List Expr :=
 [.compare .gt (.call₁ .length a) (.number 0),nulFree a,.notGlob a (.text notDigits),
  .paren (.or (.compare .eq a (.text ['0']))
   (.between (.call₃ .substr a (.number 1) (.number 1)) (.text ['1']) (.text ['9'])))]

def maxUint64 : List Char:=Nat.toDigits 10 18446744073709551615

def uint64Expr : Expr :=
 allOf isText (unsigned .column ++
  [.paren (.or (.compare .lt (.call₁ .length .column) (.number 20))
   (.paren (.and (.compare .eq (.call₁ .length .column) (.number 20))
    (.compare .le .column (.collateBinary (.text maxUint64))))))])

def hyphenAt (n:ℕ) : Expr:=.compare .eq (.call₃ .substr .column (.number n) (.number 1)) (.text ['-'])

def withoutHyphens : Expr:=.call₃ .replace .column (.text ['-']) (.text [])

def uuidExpr : Expr :=
 allOf isText [.compare .eq (.call₁ .length .column) (.number 36),nulFree .column,hyphenAt 9,
  hyphenAt 14,hyphenAt 19,hyphenAt 24,.compare .eq (.call₁ .length withoutHyphens) (.number 32),
  .notGlob withoutHyphens (.text notHex)]

def magnitudeExpr : Expr :=
 .paren (.caseWhen (.compare .eq (.call₃ .substr .column (.number 1) (.number 1)) (.text ['-']))
  (.call₂ .substr .column (.number 2)) .column)

def wholeExpr (scale:ℕ) : Expr :=
 if scale > 0 then
  .call₃ .substr magnitudeExpr (.number 1) (.sub (.call₁ .length magnitudeExpr) (.number (scale+1)))
 else magnitudeExpr

def fractionExpr (scale:ℕ) : Expr:=.call₂ .substr magnitudeExpr (.negative scale)

def fractionConditions (scale:ℕ) : List Expr :=
 if scale > 0 then
  [.compare .eq (.call₃ .substr magnitudeExpr (.negative (scale+1)) (.number 1)) (.text ['.']),
   .compare .eq (.call₁ .length (fractionExpr scale)) (.number scale),
   .notGlob (fractionExpr scale) (.text notDigits)]
 else []

def boundExpr (precision scale:ℕ) : Expr :=
 if precision=scale then .compare .eq (wholeExpr scale) (.text ['0'])
 else .compare .le (.call₁ .length (wholeExpr scale)) (.number (precision-scale))

def negativeZero (scale:ℕ) : List Char :=
 '-' :: '0' :: if scale > 0 then '.' :: replicate scale '0' else []

def decimalExpr (precision scale:ℕ) : Expr :=
 allOf isText (nulFree .column::fractionConditions scale++unsigned (wholeExpr scale) ++
  [boundExpr precision scale]++[.compare .ne .column (.text (negativeZero scale))])

-- The words of the source's texts are taken apart as the expressions put them together.

variable (name:String)
lemma render_isText : isText.render name=isStorageClass name "text" := by
 have h₁ : ") = '" = ")"++" = "++"'":=rfl
 unfold isStorageClass
 rw [h₁]
 simp only [isText,Expr.render,Function.render,Comparison.render]
 simp only [-String.reduceAppend,String.append_assoc]

lemma render_allOf (first a:Expr) (conditions:List Expr) : (allOf first (conditions++[a])).render name =
  (allOf first conditions).render name++(" AND "++a.render name) := by
 simp [allOf,Expr.render,String.append_assoc]

lemma render_unsigned (first a:Expr) :
 (allOf first (unsigned a)).render name=first.render name++(" AND "++unsignedText (a.render name)) := by
 have h₁ : ") > 0 AND instr(" = ")"++" > "++"0"++" AND "++"instr(":=rfl
 have h₂ : ", char(0)) = 0 AND " = ", "++"char("++"0"++")"++")"++" = "++"0"++" AND ":=rfl
 have h₃ : " NOT GLOB '*[^0-9]*' AND (" = " NOT GLOB "++"'"++"*[^0-9]*"++"'"++" AND "++"(":=rfl
 have h₄ : " = '0' OR substr(" = " = "++"'"++"0"++"'"++" OR "++"substr(":=rfl
 have h₅ : ", 1, 1) BETWEEN '1' AND '9')" = ", "++"1"++", "++"1"++")"++" BETWEEN "++"'"++"1"++"'" ++
   " AND "++"'"++"9"++"'"++")":=rfl
 unfold unsignedText
 rw [h₁,h₂,h₃,h₄,h₅]
 simp only [allOf,unsigned,nulFree,foldl_cons,foldl_nil]
 simp only [Expr.render]
 simp only [Function.render,Comparison.render]
 simp only [-String.reduceAppend,String.append_assoc]
 rfl

lemma render_uint64 : uint64Expr.render name=uint64Check name := by
 have h₁ : " AND (length(" = " AND "++"("++"length(":=rfl
 have h₂ : ") < 20 OR (length(" = ")"++" < "++"20"++" OR "++"("++"length(":=rfl
 have h₃ : ") = 20 AND " = ")"++" = "++"20"++" AND ":=rfl
 have h₄ : " <= '18446744073709551615' COLLATE BINARY))" = " <= "++"'"++"18446744073709551615" ++
   "'"++" COLLATE BINARY"++")"++")":=rfl
 have hm:String.ofList maxUint64 = "18446744073709551615":=by decide
 unfold uint64Check
 rw [h₁,h₂,h₃,h₄,uint64Expr,render_allOf,render_unsigned,render_isText]
 simp only [Expr.render]
 rw [hm]
 simp only [Function.render,Comparison.render]
 simp only [-String.reduceAppend,String.append_assoc]
 rfl

lemma render_uuid : uuidExpr.render name=uuidCheck name := by
 have h₁ : " AND length(" = " AND "++"length(":=rfl
 have h₂ : ") = 36 AND instr(" = ")"++" = "++"36"++" AND "++"instr(":=rfl
 have h₃ : ", char(0)) = 0 AND substr(" = ", "++"char("++"0"++")"++")"++" = "++"0"++" AND " ++
   "substr(":=rfl
 have h₄ : ", 9, 1) = '-' AND substr(" = ", "++"9"++", "++"1"++")"++" = "++"'"++"-"++"'"++" AND " ++
   "substr(":=rfl
 have h₅ : ", 14, 1) = '-' AND substr(" = ", "++"14"++", "++"1"++")"++" = "++"'"++"-"++"'" ++
   " AND "++"substr(":=rfl
 have h₆ : ", 19, 1) = '-' AND substr(" = ", "++"19"++", "++"1"++")"++" = "++"'"++"-"++"'" ++
   " AND "++"substr(":=rfl
 have h₇ : ", 24, 1) = '-' AND length(replace(" = ", "++"24"++", "++"1"++")"++" = "++"'"++"-"++"'" ++
   " AND "++"length("++"replace(":=rfl
 have h₈ : ", '-', '')) = 32 AND replace(" = ", "++"'"++"-"++"'"++", "++"'"++""++"'"++")"++")" ++
   " = "++"32"++" AND "++"replace(":=rfl
 have h₉ : ", '-', '') NOT GLOB '*[^0-9a-f]*'" = ", "++"'"++"-"++"'"++", "++"'"++""++"'"++")" ++
   " NOT GLOB "++"'"++"*[^0-9a-f]*"++"'":=rfl
 unfold uuidCheck
 rw [h₁,h₂,h₃,h₄,h₅,h₆,h₇,h₈,h₉,←render_isText]
 simp only [uuidExpr,allOf,nulFree,hyphenAt,withoutHyphens,foldl_cons,foldl_nil]
 simp only [Expr.render]
 have hn:toString 0 = "0" ∧ toString 1 = "1" ∧ toString 9 = "9" ∧ toString 14 = "14" ∧
   toString 19 = "19" ∧ toString 24 = "24" ∧ toString 32 = "32" ∧ toString 36 = "36":=by decide
 have ht:String.ofList ['-'] = "-" ∧ String.ofList notHex = "*[^0-9a-f]*" ∧
   String.ofList [] = "":=by decide
 simp only [Function.render,Comparison.render,hn,ht]
 simp only [-String.reduceAppend,String.append_assoc]

lemma render_magnitude : magnitudeExpr.render name=magnitude name := by
 have h₁ : "(CASE WHEN substr(" = "("++"CASE WHEN "++"substr(":=rfl
 have h₂ : ", 1, 1) = '-' THEN substr(" = ", "++"1"++", "++"1"++")"++" = "++"'"++"-"++"'" ++
   " THEN "++"substr(":=rfl
 have h₃ : ", 2) ELSE " = ", "++"2"++")"++" ELSE ":=rfl
 have h₄ : " END)" = " END"++")":=rfl
 unfold magnitude
 rw [h₁,h₂,h₃,h₄]
 simp only [magnitudeExpr,Expr.render]
 simp only [Function.render,Comparison.render]
 simp only [-String.reduceAppend,String.append_assoc]
 rfl

lemma render_decimal (precision scale:ℕ) :
 (decimalExpr precision scale).render name=decimalCheck precision scale name := by
 have h₁ : " AND instr(" = " AND "++"instr(":=rfl
 have h₂ : ", char(0)) = 0" = ", "++"char("++"0"++")"++")"++" = "++"0":=rfl
 have h₃ : " AND substr(" = " AND "++"substr(":=rfl
 have h₄ : ", -" = ", "++"-":=rfl
 have h₅ : ", 1) = '.' AND length(" = ", "++"1"++")"++" = "++"'"++"."++"'"++" AND "++"length(":=rfl
 have h₆ : ") = " = ")"++" = ":=rfl
 have h₇ : " NOT GLOB '*[^0-9]*'" = " NOT GLOB "++"'"++"*[^0-9]*"++"'":=rfl
 have h₈ : ", 1, length(" = ", "++"1"++", "++"length(":=rfl
 have h₉ : ") - " = ")"++" - ":=rfl
 have hz:String.ofList (negativeZero scale) =
   "-"++(if scale > 0 then "0."++String.ofList (replicate scale '0') else "0"):=by
  apply String.toList_injective
  unfold negativeZero
  split_ifs <;> simp
 have hw:(wholeExpr scale).render name =
   if scale > 0 then "substr("++magnitude name++", 1, length("++magnitude name++") - " ++
    toString (scale+1)++")" else magnitude name:=by
  rw [←render_magnitude,h₈,h₉,wholeExpr]
  split_ifs
  · simp only [Expr.render]
    simp only [Function.render]
    simp only [-String.reduceAppend,String.append_assoc]
    rfl
  · rfl
 have hf:(allOf isText (nulFree .column::fractionConditions scale)).render name =
   isStorageClass name "text"++(" AND instr("++(name++(", char(0)) = 0" ++
    if scale > 0 then " AND substr("++magnitude name++", -"++toString (scale+1) ++
     ", 1) = '.' AND length("++("substr("++magnitude name++", -"++toString scale++")")++") = " ++
     toString scale++" AND "++("substr("++magnitude name++", -"++toString scale++")") ++
     " NOT GLOB '*[^0-9]*'" else ""))):=by
  rw [←render_magnitude,h₁,h₂,h₃,h₄,h₅,h₆,h₇,fractionConditions,←render_isText]
  split_ifs
  · simp only [allOf,nulFree,fractionExpr,foldl_cons,foldl_nil]
    simp only [Expr.render]
    simp only [Function.render,Comparison.render]
    simp only [-String.reduceAppend,String.append_assoc]
    rfl
  · simp only [allOf,nulFree,foldl_cons,foldl_nil]
    simp only [Expr.render]
    simp only [Function.render,Comparison.render,String.append_empty]
    simp only [-String.reduceAppend,String.append_assoc]
    rfl
 have h₁₀ : " != '-" = " != "++"'"++"-":=rfl
 have h₁₁ : " = '0'" = " = "++"'"++"0"++"'":=rfl
 have h₁₂ : " AND length(" = " AND "++"length(":=rfl
 have h₁₃ : ") <= " = ")"++" <= ":=rfl
 have ha:allOf isText (nulFree .column::fractionConditions scale++unsigned (wholeExpr scale)) =
   allOf (allOf isText (nulFree .column::fractionConditions scale)) (unsigned (wholeExpr scale)):=
  foldl_append
 rw [decimalExpr,render_allOf,render_allOf,ha,render_unsigned,hf]
 unfold decimalCheck
 dsimp only
 rw [←hw,h₁₀,h₁₁,h₁₂,h₁₃,Expr.render,Expr.render,Expr.render,hz,boundExpr]
 by_cases hp : precision=scale
 · rw [if_pos hp,if_pos hp]
   simp only [Expr.render]
   simp only [Comparison.render]
   simp only [-String.reduceAppend,String.append_assoc]
 · rw [if_neg hp,if_neg hp]
   simp only [Expr.render]
   simp only [Function.render,Comparison.render]
   simp only [-String.reduceAppend,String.append_assoc]
end InvariantProtocol.SqliteChecks
