import InvariantProtocol.ClickHouseScope
namespace InvariantProtocol.ClickHouseLayout
open GoResult GoText DataSchema DataMapping CompilerState ClickHouseSchema SqlText SqlType SqlExpr
open ClickHouseChecks ClickHouseText StoredShape ClickHouseScope LogicalRow
open List hiding map

section

def valueText (c:Check) : String:=(c.expr placeholder).render

def scopeElement (topLevel:Bool) (name:String) : Expr :=
 if topLevel then .quoted name else .tupleElement placeholder name

def scopeText (topLevel:Bool) (c:Check) : String :=
 if topLevel then c.columnExpr.render else valueText c

lemma tupleElementExpression_eq (e:Expr) (name:String) :
 tupleElementExpression e.render name=(Expr.tupleElement e name).render := by
 rw [tupleElementExpression,quoteLiteral_eq,←String.toList_inj]
 simp [Expr.render,call]

lemma scopeElementExpression_eq (name:String) (topLevel:Bool) :
 scopeElementExpression name topLevel=(scopeElement topLevel name).render := by
 cases topLevel with
 | true=>exact quoteIdentifier_eq name
 | false=>exact tupleElementExpression_eq placeholder name

lemma callOnValue_eq (f:Function) :
 callOnValue f.name=(Expr.apply f placeholder).render := rfl

lemma numbers_text (numbers:List UInt32) :
 numberList numbers=String.intercalate ", " ((caseNumbers numbers).map toString) := by
 simp [numberList,caseNumbers,Function.comp_def]
 rfl

variable {v:Validation} {c:Check}
lemma ifPresent_text (hc:Clean c) (h:v.expression=valueText c) :
 v.ifPresent.expression=valueText (.ifPresent c) := by
 have hi:replaceValue v.expression valueExpression =
   (c.expr (.tupleElement placeholder "value")).render:=by
  rw [h,valueText,valueExpression,show constraintValuePlaceholder=placeholder.render from rfl,
   tupleElementExpression_eq,replaceValue_check hc]
 rw [Validation.ifPresent,hi,presentExpression,
  show constraintValuePlaceholder=placeholder.render from rfl,tupleElementExpression_eq,
  ← String.toList_inj]
 simp [valueText,Check.expr,Expr.render]

lemma ifNotNull_text (hc:Clean c) (h:v.expression=valueText c) :
 v.ifNotNull.expression=valueText (.ifNotNull c) := by
 have hi:replaceValue v.expression (callOnValue "assumeNotNull") =
   (c.expr (.apply .assumeNotNull placeholder)).render:=by
  rw [h,valueText,show "assumeNotNull" = Function.assumeNotNull.name from rfl,callOnValue_eq,
   replaceValue_check hc]
 rw [Validation.ifNotNull,hi,show "isNull" = Function.isNull.name from rfl,callOnValue_eq,
  ← String.toList_inj]
 simp [valueText,Check.expr,Expr.render]

lemma onAll_text {parameter:String} (hc:Clean c) (h:v.expression=valueText c) (a:Expr) :
 (v.onAll parameter a.render).expression =
  (Expr.arrayAll parameter (.paren (c.expr (.name parameter))) a).render := by
 have hi:replaceValue v.expression parameter=(c.expr (.name parameter)).render:=by
  rw [h]
  exact replaceValue_check hc (.name parameter)
 rw [Validation.onAll,hi,←String.toList_inj]
 simp [Expr.render,call]

lemma replace_text {name:String} {topLevel:Bool} (hc:Clean c) (h:v.expression=valueText c) :
 (v.replace (scopeElementExpression name topLevel)).expression =
  scopeText topLevel (.element name c) := by
 rw [Validation.replace,h,scopeElementExpression_eq,valueText,replaceValue_check hc]
 cases topLevel <;> rfl
end

section

/-- The expressions are the text of well-formed checks, one for one. -/
structure Writes (text:Check → String) (vs:List Validation) (cs:List Check) : Prop where
 expressions : vs.map (fun v=>v.expression)=cs.map text
 clean : ∀c∈cs,Clean c

variable {text text':Check → String} {vs ws:List Validation} {cs ds:List Check}
lemma writes_nil : Writes text [] [] := ⟨rfl,by simp⟩

lemma writes_singleton {v:Validation} {c:Check} (h:v.expression=text c) (hc:Clean c) :
 Writes text [v] [c] := ⟨by simp [h],by simpa using hc⟩

lemma Writes.append (h:Writes text vs cs) (h':Writes text ws ds) : Writes text (vs++ws) (cs++ds) :=
 ⟨by rw [map_append,map_append,h.expressions,h'.expressions],
  List.forall_mem_append.2 ⟨h.clean,h'.clean⟩⟩

lemma Writes.map {f:Validation → Validation} {g:Check → Check} (h:Writes text vs cs)
 (ht:∀v c,Clean c → v.expression=text c → (f v).expression=text' (g c))
 (hcl:∀c,Clean c → Clean (g c)) : Writes text' (vs.map f) (cs.map g) := by
 refine ⟨?_,?_⟩
 · obtain ⟨hex,hcs⟩:=h
   induction vs generalizing cs with
   | nil=>simp_all
   | cons v vs ih=>
    cases cs with
    | nil=>simp at hex
    | cons c cs=>
     simp only [map_cons,List.cons.injEq] at hex ⊢
     have hr:=ih hex.2 fun d hd=>hcs d (mem_cons_of_mem _ hd)
     exact ⟨ht v c (hcs c mem_cons_self) hex.1,hr⟩
 · simpa using fun c hc=>hcl c (h.clean c hc)
end

section
variable {a:FieldAttributes} {t:DataType} {path:String} {mapped:MappedType}
 {field:MappedField} {diagnostics:List MappingDiagnostic} {column:ColumnType}
 {checks:List Check}
lemma presentTuple_eq (column:ColumnType) : presentTuple column.render=(presenceTuple column).render := by
 have hp : "Tuple(`present` Bool, `value` " =
   "Tuple"++"("++(quoteName "present"++" "++BaseType.bool.name++", " ++
    (quoteName "value"++" ")):=by rfl
 unfold presentTuple
 rw [hp]
 simp only [presenceTuple,ColumnType.render,renderElements,String.intercalate_cons_cons,
  String.intercalate_singleton,call,String.append_assoc]

lemma Writes.ifPresent {vs:List Validation} (h:Writes valueText vs checks) :
 Writes valueText (vs.map Validation.ifPresent) (checks.map .ifPresent) :=
 h.map (fun _ _ hc hv=>ifPresent_text hc hv) fun _ hc=>hc

lemma Writes.ifNotNull {vs:List Validation} (h:Writes valueText vs checks) :
 Writes valueText (vs.map Validation.ifNotNull) (checks.map .ifNotNull) :=
 h.map (fun _ _ hc hv=>ifNotNull_text hc hv) fun _ hc=>hc

lemma writes_required : Writes valueText [⟨path,"required",presentExpression⟩]
 [.element "present" .isTrue] :=
 writes_singleton (tupleElementExpression_eq placeholder "present") ⟨by decide,trivial⟩

lemma mapPresence_writes (h:mapPresence a t path mapped=.ok (field,diagnostics))
 (hcm:mapped.composite=isComposite t) (ht:mapped.sqlType=column.render)
 (hch:Writes valueText mapped.validations checks) :
 PresenceOk a t ∧ field.sqlType=(presenceColumn a t column).render ∧
  field.defaultExpression=presenceDefault a t ∧
  Writes valueText field.validations (presenceChecks a t checks) := by
 unfold mapPresence at h
 unfold PresenceOk presenceColumn presenceDefault presenceChecks
 cases hp : a.presence <;>
  simp only [hp,bind_ok,rejectWhen_ok,exists_const,Except.ok.injEq,Prod.mk.injEq,not_or,
   Bool.not_eq_true,reduceCtorEq] at h
 case implicit=>
  obtain ⟨⟨-,hcp⟩,rfl,-⟩:=h
  exact ⟨by simpa using hcp,ht,rfl,hch⟩
 case explicit=>
  rw [hcm] at h
  cases hc : isComposite t <;> simp only [hc,if_true,Bool.false_eq_true,if_false,Except.ok.injEq,
   Prod.mk.injEq] at h ⊢
  · obtain ⟨-,rfl,-⟩:=h
    exact ⟨trivial,by rw [ht];rfl,rfl,hch.ifNotNull⟩
  · obtain ⟨-,rfl,-⟩:=h
    exact ⟨trivial,by rw [ht,presentTuple_eq],rfl,hch.ifPresent⟩
 case required=>
  obtain ⟨-,rfl,-⟩:=h
  exact ⟨trivial,by rw [ht,presentTuple_eq],rfl,writes_required.append hch.ifPresent⟩
 case oneof=>
  obtain ⟨⟨ho,-⟩,rfl,-⟩:=h
  exact ⟨ho,by rw [ht,presentTuple_eq],rfl,hch.ifPresent⟩
 case repeated=>
  obtain ⟨⟨-,hl⟩,rfl,-⟩:=h
  cases t with
  | list p element n=>
   refine ⟨⟨p,element,n,rfl⟩,ht,?_,hch⟩
   simp only [Option.some.injEq]
  | _=>exact absurd rfl hl
 case map=>
  obtain ⟨⟨-,hm⟩,rfl,-⟩:=h
  refine ⟨?_,ht,rfl,hch⟩
  cases t with
  | map p key value=>exact ⟨p,key,value,rfl⟩
  | _=>simp at hm
 case notApplicable=>
  obtain ⟨-,rfl,-⟩:=h
  exact ⟨trivial,ht,rfl,hch⟩
end

section

def FieldWritten (field:Field) : Prop :=
 ∀path mapped diagnostics,mapField field path=.ok (mapped,diagnostics) →
  MappableField field ∧ mapped.sqlType=(fieldColumn field).render ∧
   mapped.defaultExpression=fieldDefault field ∧
   Writes valueText mapped.validations (fieldChecks field)

abbrev ColumnEntry:=ColumnType×String

def caseEntry : ColumnEntry:=(.base .int32,"0")

def fieldEntry (field:Field) : ColumnEntry:=(fieldColumn field,fieldDefault field)

def columnText (c:String×ColumnEntry) : String×String×String:=(c.1,c.2.1.render,c.2.2)

def declared (d:FieldDeclaration) : String×String×String :=
 (d.name,d.sqlType,d.defaultExpression)

/-- The state of the third loop has grown by these columns and checks. -/
structure Grown (topLevel:Bool) (s t:ScopeState) (columns:List (String×ColumnEntry))
  (checks:List Check) : Prop where
 declarations : t.declarations.map declared=s.declarations.map declared++columns.map columnText
 validations : ∃vs,t.validations=s.validations++vs ∧ Writes (scopeText topLevel) vs checks

variable {topLevel:Bool} {s t u:ScopeState} {columns columns':List (String×ColumnEntry)}
 {checks checks':List Check}
lemma grown_refl : Grown topLevel s s [] [] := ⟨by simp,[],by simp,writes_nil⟩

lemma Grown.trans (h:Grown topLevel s t columns checks) (h':Grown topLevel t u columns' checks') :
 Grown topLevel s u (columns++columns') (checks++checks') := by
 obtain ⟨vs,hvs,hw⟩:=h.validations
 obtain ⟨vs',hv',hw'⟩:=h'.validations
 refine ⟨?_,vs++vs',?_,hw.append hw'⟩
 · rw [h'.declarations,h.declarations,map_append,append_assoc]
 · rw [hv',hvs,append_assoc]

variable {groups:GoMap String OneofGroup} {path:String} {before rest:List Field}
 {field:Field} {group:OneofGroup} {seen:List String}
lemma caseCheck_text (hc:group.caseName=oneofCaseName field.attributes.oneof)
 (hn:group.numbers=memberNumbers field.attributes.oneof before) :
 scopeElementExpression group.caseName topLevel++" IN ("++numberList group.numbers++")" =
  scopeText topLevel (caseCheck field before) := by
 rw [scopeElementExpression_eq,numbers_text,hc,hn]
 cases topLevel <;> rfl

lemma selectedCheck_text (hc:group.caseName=oneofCaseName field.attributes.oneof) :
 (presenceValidation group field path topLevel).expression =
  scopeText topLevel (selectedCheck field) := by
 rw [presenceValidation,selectedExpression,scopeElementExpression_eq,scopeElementExpression_eq,
  tupleElementExpression_eq,hc]
 have hn:toString (lastNumber field).toNat=(Expr.int (lastNumber field).toNat).render:=rfl
 rw [hn,←String.toList_inj]
 cases topLevel <;>
  simp [scopeText,selectedCheck,Check.columnExpr,valueText,Check.expr,Expr.render,scopeElement]

/-- The discriminator comes with the first member of its oneof, once. -/
theorem openField_grown (topLevel:Bool) (hgr:Collected (before++field::rest) groups)
 (hs:∀oneof,oneof∈seen ↔ ∃f∈before,f.attributes.oneof=oneof) (hem:∀oneof∈s.emittedGroups,oneof∈seen) :
 Grown topLevel s (openField groups topLevel field before.length s)
  (if opens seen field then [(oneofCaseName field.attributes.oneof,caseEntry)] else [])
  (if opens seen field then [caseCheck field (field::rest)] else []) ∧
 ∀oneof∈(openField groups topLevel field before.length s).emittedGroups,
  oneof∈field.attributes.oneof::seen := by
 have hk:∀oneof∈s.emittedGroups,oneof∈field.attributes.oneof::seen:=
  fun o ho=>mem_cons_of_mem _ (hem o ho)
 by_cases hop : opens seen field
 · obtain ⟨hon,hn⟩:=hop
   have hfs:∀f∈before,f.attributes.oneof≠field.attributes.oneof:=
    fun f hf heq=>hn ((hs _).2 ⟨f,hf,heq⟩)
   obtain ⟨group,hl⟩:=hgr.covers field (by simp) hon
   have hg:=hgr.describes _ _ hl
   have hfr:group.firstIndex=before.length:=by
    rw [hg.first,findIdx_append,findIdx_eq_length_of_false (by simpa using hfs)]
    simp [findIdx_cons]
   have hnm:group.numbers=memberNumbers field.attributes.oneof (field::rest):=by
    rw [hg.numbers,memberNumbers_append,memberNumbers_eq_nil hfs,nil_append]
   have het:group.name∉s.emittedGroups:=by
    rw [hg.name]
    exact fun hm=>hn (hem _ hm)
   have hoe:openField groups topLevel field before.length s=emitCase topLevel group s:=by
    rw [openField,hl]
    exact if_pos ⟨het,hfr⟩
   rw [hoe,if_pos ⟨hon,hn⟩,if_pos ⟨hon,hn⟩]
   refine ⟨⟨?_,_,rfl,writes_singleton ?_ ?_⟩,?_⟩
   · simp [emitCase,declared,columnText,caseEntry,hg.caseName,ColumnType.render,BaseType.name]
   · exact caseCheck_text hg.caseName hnm
   · exact ⟨hg.nulFree,cons_ne_nil _ _⟩
   · intro o ho
     rcases List.mem_cons.1 ho with rfl|ho
     · simp [hg.name]
     · exact hk o ho
 · have hoe:openField groups topLevel field before.length s=s:=by
    rw [openField]
    cases hl : groups.lookup field.attributes.oneof with
    | none=>rfl
    | some group=>
     obtain ⟨hon,-⟩:=hgr.inhabited _ _ hl
     have hg:=hgr.describes _ _ hl
     -- An earlier member exists, so the group's first index lies before this one.
     have hol:field.attributes.oneof∈seen:=by
      by_contra hn
      exact hop ⟨hon,hn⟩
     have hlt:before.findIdx (fun f=>decide (f.attributes.oneof=field.attributes.oneof)) <
       before.length:=
      findIdx_lt_length_of_exists (by simpa using (hs _).1 hol)
     have hfr:group.firstIndex≠before.length:=by
      rw [hg.first,findIdx_append,if_pos hlt]
      omega
     exact if_neg fun h=>hfr h.2
   rw [hoe,if_neg hop,if_neg hop]
   exact ⟨grown_refl,hk⟩

lemma closeField_grown (topLevel:Bool) (path:String) (diagnostics:List MappingDiagnostic)
 (s:ScopeState) (hgr:Collected (before++field::rest) groups) {mapped:MappedField}
 (ht:mapped.sqlType=(fieldColumn field).render) (hd:mapped.defaultExpression=fieldDefault field)
 (hch:Writes valueText mapped.validations (fieldChecks field)) (hn:NulFree field.attributes.name) :
 Grown topLevel s (closeField groups path topLevel field mapped diagnostics s)
  [(field.attributes.name,fieldEntry field)]
  (memberChecks field++(fieldChecks field).map (.element field.attributes.name)) := by
 have hvalue:Writes (scopeText topLevel)
   (mapped.validations.map
    (Validation.replace (scopeElementExpression field.attributes.name topLevel)))
   ((fieldChecks field).map (.element field.attributes.name)):=
  hch.map (fun _ _ hc hv=>replace_text hc hv) fun _ hc=>⟨hn,hc⟩
 refine ⟨by simp [closeField,declared,columnText,fieldEntry,ht,hd],?_⟩
 cases hl : groups.lookup field.attributes.oneof with
 | none=>
  have ho:field.attributes.oneof = "":=by
   by_contra ho
   obtain ⟨g,hg⟩:=hgr.covers field (by simp) ho
   rw [hl] at hg
   cases hg
  refine ⟨_,by simp only [closeField,hl,append_assoc];rfl,?_⟩
  rw [memberChecks,if_pos ho]
  exact writes_nil.append hvalue
 | some group=>
  have hgp:=hgr.describes _ _ hl
  refine ⟨_,by simp only [closeField,hl,append_assoc];rfl,?_⟩
  rw [memberChecks,if_neg (hgr.inhabited _ _ hl).1]
  exact (writes_singleton (selectedCheck_text hgp.caseName) ⟨hgp.nulFree,hn⟩).append hvalue

lemma mapScopeFields_grown {fields:List Field} (hfl:∀f∈fields,FieldWritten f)
 (hn:∀f∈fields,NulFree f.attributes.name) (hg:Collected (before++fields) groups)
 (hs:∀oneof,oneof∈seen ↔ ∃f∈before,f.attributes.oneof=oneof) (hem:∀oneof∈s.emittedGroups,oneof∈seen)
 (h:mapScopeFields groups path topLevel fields before.length s=.ok t) :
 MappableFields fields ∧ Grown topLevel s t
  (scopeEntries caseEntry seen (fields.zip (fields.map fieldEntry)))
  (scopeChecks seen (fields.zip (allChecks fields))) := by
 induction fields generalizing before seen s with
 | nil=>
  obtain rfl : s=t:=by simpa [mapScopeFields] using h
  exact ⟨trivial,grown_refl⟩
 | cons field rest ih=>
  simp only [mapScopeFields,bind_ok,precededBy_ok,Prod.exists] at h
  obtain ⟨mapped,diagnostics,hmp,h⟩:=h
  obtain ⟨hm,ht,hd,hc⟩:=hfl field mem_cons_self _ _ _ hmp
  obtain ⟨ho,hem⟩:=openField_grown topLevel hg hs hem
  have hcl:=closeField_grown topLevel path diagnostics
   (openField groups topLevel field before.length s) hg ht hd hc
   (hn field mem_cons_self)
  have hs':∀oneof,oneof∈field.attributes.oneof::seen ↔
    ∃f∈before++[field],f.attributes.oneof=oneof:=by
   intro o
   simp only [mem_cons,hs,mem_append,not_mem_nil,or_false]
   constructor
   · rintro (rfl|⟨f,hf,rfl⟩)
     · exact ⟨field,.inr rfl,rfl⟩
     · exact ⟨f,.inl hf,rfl⟩
   · rintro ⟨f,hf|rfl,rfl⟩
     · exact .inr ⟨f,hf,rfl⟩
     · exact .inl rfl
  have hg':Collected ((before++[field])++rest) groups:=by simpa using hg
  have hl:before.length+1=(before++[field]).length:=by simp
  have hk:∀oneof∈(closeField groups path topLevel field mapped diagnostics
    (openField groups topLevel field before.length s)).emittedGroups,
    oneof∈field.attributes.oneof::seen:=hem
  rw [hl] at h
  obtain ⟨hr,hgr⟩:=ih (fun f hf=>hfl f (mem_cons_of_mem _ hf))
   (fun f hf=>hn f (mem_cons_of_mem _ hf)) hg' hs' hk h
  refine ⟨⟨hm,hr⟩,?_⟩
  have ha:=(ho.trans hcl).trans hgr
  simpa [scopeEntries,scopeChecks,allChecks,append_assoc,map_fst_zip,allChecks_eq] using ha
end

section
variable {path:String} {mapped:MappedType}
structure TypeWritten (t:DataType) (mapped:MappedType) : Prop where
 mappable : MappableType t
 composite : mapped.composite=isComposite t
 sqlType : mapped.sqlType=(typeColumn t).render
 checks : Writes valueText mapped.validations (typeChecks t)

lemma mapPrimitive_column {kind:PrimitiveKind} {sqlType message:String}
 (h:mapPrimitive kind=.ok (sqlType,message)) : (kind≠.unspecified ∧ ∀number,kind≠.unrecognized number) ∧
  sqlType=(primitiveColumn kind).name := by
 cases kind <;> cases h <;> exact ⟨⟨by simp,by simp⟩,rfl⟩

variable {p:String} {topLevel:Bool}
lemma mapPrimitiveType_written {kind:PrimitiveKind} (h:mapPrimitiveType kind path=.ok mapped) :
 TypeWritten (.primitive p kind) mapped := by
 simp only [mapPrimitiveType,bind_ok,refuse_ok,pure_ok,Prod.exists] at h
 obtain ⟨sqlType,message,hp,rfl⟩:=h
 obtain ⟨hk,rfl⟩:=mapPrimitive_column hp
 refine ⟨hk,rfl,rfl,?_⟩
 rw [typeChecks]
 split
 · exact writes_singleton rfl trivial
 · exact writes_nil

variable {values:List EnumValue}
lemma mem_declaredNumbers {n:ℤ} :
 n∈declaredNumbers values ↔ ∃value∈values,value.number=n := by
 have hf:∀(vs:List EnumValue) (ns:List ℤ),
   n∈vs.foldl (fun numbers value=>
    if value.number∈numbers then numbers else numbers++[value.number]) ns ↔
   n∈ns ∨ ∃value∈vs,value.number=n:=by
  intro vs
  induction vs with
  | nil=>simp
  | cons v vs ih=>
   intro ns
   rw [foldl_cons,ih]
   split
   · next hm=>
     simp only [mem_cons,exists_eq_or_imp]
     constructor
     · rintro (h|h)
       · exact .inl h
       · exact .inr (.inr h)
     · rintro (h|rfl|h)
       · exact .inl h
       · exact .inl hm
       · exact .inr h
   · simp [or_assoc,eq_comm]
 simpa [declaredNumbers] using hf values []

lemma mem_enumNumbers {n:ℤ} :
 n∈enumNumbers values ↔ n∈values.map fun value=>value.number := by
 rw [enumNumbers,mem_insertionSort,mem_declaredNumbers,mem_map]

lemma mapEnumType_written {enum:EnumType} (h:mapEnumType enum path=.ok mapped) :
 TypeWritten (.enum p enum) mapped := by
 simp only [mapEnumType,bind_ok,rejectWhen_ok,exists_const] at h
 obtain ⟨hv,h⟩:=h
 cases hc : enum.closed <;> simp only [hc,Bool.false_eq_true,if_false,if_true,pure_ok] at h <;> subst h
 · exact ⟨hv,rfl,rfl,by simpa [typeChecks,hc] using writes_nil⟩
 · refine ⟨hv,rfl,rfl,?_⟩
   rw [typeChecks,if_pos hc]
   refine writes_singleton ?_ ?_
   · rw [enumNumberList]
     rfl
   · obtain ⟨value,rest,hcn⟩:=exists_cons_of_ne_nil hv
     exact ne_nil_of_mem (mem_enumNumbers.2 (by rw [hcn];exact mem_cons_self))

lemma renderElements_eq (columns:List (String×ColumnType)) :
 renderElements (columns.map Prod.fst) (columns.map Prod.snd) =
  columns.map fun c=>quoteName c.1++" "++c.2.render := by
 induction columns with
 | nil=>rfl
 | cons c columns ih=>simp [renderElements,ih]

lemma tupleType_eq {declarations:List FieldDeclaration} {columns:List (String×ColumnType)}
 (h:declarations.map (fun d=>(d.name,d.sqlType))=columns.map (Prod.map id ColumnType.render)) :
 tupleType declarations=(tupleOf columns).render := by
 have hel:=congrArg (List.map fun e : String×String=>quoteIdentifier e.1++" "++e.2) h
 simp only [map_map,Function.comp_def,Prod.map_fst,Prod.map_snd,id_eq,quoteIdentifier_eq] at hel
 rw [tupleType,tupleOf,ColumnType.render,renderElements_eq]
 simp only [quoteIdentifier_eq,hel,call]
 rfl

variable {fields:List Field} {scope:ScopeState}
lemma mapScope_written (hf:∀f∈fields,FieldWritten f)
 (h:mapScope fields path topLevel=.ok scope) : ScopeOk fields ∧ MappableFields fields ∧
  Grown topLevel {} scope (scopeEntries caseEntry [] (fields.zip (fields.map fieldEntry)))
   (scopeChecks [] (fields.zip (allChecks fields))) := by
 simp only [mapScope,bind_ok] at h
 obtain ⟨groups,hg,hs⟩:=h
 obtain ⟨hok,hc⟩:=scopeGroups_ok hg
 have hc':Collected ([]++fields) groups:=hc
 exact ⟨hok,mapScopeFields_grown hf hok.nulFree hc' (by simp) (by simp) hs⟩

lemma scopeEntries_eq_nil {β:Type} {entry:β} {seen:List String}
 {f:Field → β} : scopeEntries entry seen (fields.zip (fields.map f))=[] ↔ fields.isEmpty=true := by
 cases fields with
 | nil=>simp [scopeEntries]
 | cons field rest=>simp [scopeEntries]

lemma Grown.declarations_eq_nil {checks:List Check}
 (h:Grown topLevel {} scope (scopeEntries caseEntry [] (fields.zip (fields.map fieldEntry))) checks) :
 scope.declarations=[] ↔ fields.isEmpty=true := by
 have hd:=h.declarations
 rw [←map_eq_nil_iff,hd,map_nil,nil_append,map_eq_nil_iff,scopeEntries_eq_nil]

lemma Grown.elements {checks:List Check}
 (h:Grown topLevel {} scope (scopeEntries caseEntry [] (fields.zip (fields.map fieldEntry))) checks) :
 scope.declarations.map (fun d=>(d.name,d.sqlType)) =
  (scopeEntries (.base .int32) [] (fields.zip (fieldColumns fields))).map
   (Prod.map id ColumnType.render) := by
 have hen:=congrArg (List.map fun e : String×String×String=>(e.1,e.2.1)) h.declarations
 simp only [map_map,map_nil,nil_append] at hen
 have hc:=scopeEntries_map Prod.fst caseEntry [] (fields.zip (fields.map fieldEntry))
 rw [←zip_map_right,map_map] at hc
 rw [fieldColumns_eq]
 refine hen.trans ?_
 rw [show (fields.map fieldColumn)=fields.map (Prod.fst ∘ fieldEntry) from rfl,
  show (ColumnType.base .int32)=caseEntry.1 from rfl,←hc,map_map]
 rfl

lemma structType_written (hf:∀f∈fields,FieldWritten f) (h:mapScope fields path false=.ok scope) :
 TypeWritten (.struct p fields) (structType path scope) := by
 obtain ⟨hok,hm,hg⟩:=mapScope_written hf h
 obtain ⟨vs,hvs,hw⟩:=hg.validations
 have hv:scope.validations=vs:=hvs
 have hw:Writes valueText vs (scopeChecks [] (fields.zip (allChecks fields))):=hw
 unfold structType
 by_cases hem : scope.declarations=[]
 · have hf:=hg.declarations_eq_nil.1 hem
   rw [if_pos hem]
   refine ⟨⟨hok,hm⟩,rfl,?_,?_⟩
   · rw [typeColumn,structColumns,structEntries,if_pos hf]
     exact tupleType_eq rfl
   · rw [typeChecks,structChecks,if_pos hf,hv]
     rw [List.isEmpty_iff.1 hf] at hw
     refine hw.append (writes_singleton ?_ ⟨by decide,trivial⟩)
     exact congrArg (· ++ " = false") (tupleElementExpression_eq placeholder unitName)
 · have hf:¬fields.isEmpty=true:=fun h=>hem (hg.declarations_eq_nil.2 h)
   rw [if_neg hem]
   refine ⟨⟨hok,hm⟩,rfl,?_,?_⟩
   · rw [typeColumn,structColumns,structEntries,if_neg hf]
     exact tupleType_eq hg.elements
   · rw [typeChecks,structChecks,if_neg hf,hv]
     exact hw

variable {diagnostics:List MappingDiagnostic}
lemma listType_written {element:Field} {n:ℕ} {mapped:MappedField} (hm:MappableField element)
 (ht:mapped.sqlType=(fieldColumn element).render)
 (hch:Writes valueText mapped.validations (fieldChecks element)) :
 TypeWritten (.list p element n) (listType path n mapped diagnostics) where
 mappable:=hm
 composite:=rfl
 sqlType:=by
  rw [listType,ht]
  rfl
 checks:=by
  have hel:Writes valueText
    (mapped.validations.map (Validation.onAll "element" constraintValuePlaceholder))
    ((fieldChecks element).map .allElements):=
   hch.map (fun _ _ hc hv=>onAll_text hc hv placeholder) fun _ hc=>hc
  rw [typeChecks,listType]
  split
  · exact Writes.append (writes_singleton rfl trivial) hel
  · exact writes_nil.append hel

lemma mapMapType_written {key value:Field} {mappedKey mappedValue:MappedField}
 (hk:MappableField key ∧ mappedKey.sqlType=(fieldColumn key).render ∧
  Writes valueText mappedKey.validations (fieldChecks key))
 (hvalue:MappableField value ∧ mappedValue.sqlType=(fieldColumn value).render ∧
  Writes valueText mappedValue.validations (fieldChecks value))
 (h:mapMapType path mappedKey mappedValue diagnostics=.ok mapped) :
 TypeWritten (.map p key value) mapped := by
 simp only [mapMapType,bind_ok,rejectWhen_ok,exists_const,pure_ok] at h
 obtain ⟨-,rfl⟩:=h
 refine ⟨⟨hk.1,hvalue.1⟩,rfl,?_,?_⟩
 · rw [hk.2.1,hvalue.2.1,typeColumn,ColumnType.render,←String.toList_inj]
   simp [call]
 · have hky:Writes valueText
     (mappedKey.validations.map (Validation.onAll "key" (callOnValue "mapKeys")))
     ((fieldChecks key).map .allKeys):=
    hk.2.2.map (fun _ _ hc hv=>onAll_text hc hv (.apply .mapKeys placeholder)) fun _ hc=>hc
   have hvl:Writes valueText
     (mappedValue.validations.map (Validation.onAll "value" (callOnValue "mapValues")))
     ((fieldChecks value).map .allValues):=
    hvalue.2.2.map (fun _ _ hc hv=>onAll_text hc hv (.apply .mapValues placeholder))
     fun _ hc=>hc
   have hd:Writes valueText [⟨path,"map_keys",mapKeysExpression⟩] [.distinctKeys]:=by
    refine writes_singleton ?_ trivial
    rw [←String.toList_inj]
    simp [mapKeysExpression,callOnValue,valueText,Check.expr,Expr.render,call,Function.name,placeholder]
   exact hd.append (hky.append hvl)

lemma mapType_written {t:DataType} (hc:∀f∈t.children,FieldWritten f)
 (h:mapType t path=.ok mapped) : TypeWritten t mapped := by
 cases t with
 | primitive p kind=>exact mapPrimitiveType_written h
 | enum p enum=>exact mapEnumType_written h
 | struct p fields=>
  simp only [mapType,bind_ok,pure_ok] at h
  obtain ⟨groups,hg,scope,hs,rfl⟩:=h
  refine structType_written hc ?_
  simp only [mapScope,bind_ok]
  exact ⟨groups,hg,hs⟩
 | list p element n=>
  simp only [mapType,bind_ok,rejectWhen_ok,exists_const,pure_ok,Prod.exists] at h
  obtain ⟨-,field,diagnostics,hf,rfl⟩:=h
  obtain ⟨hm,ht,-,hch⟩:=hc element mem_cons_self _ _ _ hf
  exact listType_written hm ht hch
 | map p key value=>
  simp only [mapType,bind_ok,rejectWhen_ok,exists_const,precededBy_ok,Prod.exists] at h
  obtain ⟨-,mappedKey,keyDiagnostics,hky,mappedValue,valueDiagnostics,hvalue,h⟩:=h
  obtain ⟨hky,hkt,-,hk⟩:=hc key mem_cons_self _ _ _ hky
  obtain ⟨hvalue,hvt,-,hv⟩:=
   hc value (mem_cons_of_mem _ mem_cons_self) _ _ _ hvalue
  exact mapMapType_written ⟨hky,hkt,hk⟩ ⟨hvalue,hvt,hv⟩ h
 | timestamp p unit timezone=>
  simp only [mapType,mapTimestampType,bind_ok,rejectWhen_ok,exists_const,pure_ok] at h
  obtain ⟨-,rfl⟩:=h
  exact ⟨trivial,rfl,rfl,writes_nil⟩
 | duration p unit=>
  simp only [mapType,mapDurationType,bind_ok,rejectWhen_ok,exists_const,pure_ok] at h
  obtain ⟨-,rfl⟩:=h
  exact ⟨trivial,rfl,rfl,writes_nil⟩
 | json p kind=>
  simp only [mapType,mapJsonType,bind_ok,rejectWhen_ok,exists_const,pure_ok] at h
  obtain ⟨-,rfl⟩:=h
  exact ⟨trivial,rfl,rfl,writes_singleton rfl trivial⟩
 | decimal p precision scale=>
  simp only [mapType,mapDecimalType,bind_ok,rejectWhen_ok,exists_const,pure_ok] at h
  obtain ⟨-,-,rfl⟩:=h
  refine ⟨trivial,rfl,?_,writes_nil⟩
  rw [typeColumn,ColumnType.render,←String.toList_inj]
  simp [call]
 | uuid p=>
  cases h
  exact ⟨trivial,rfl,rfl,writes_nil⟩
 | fixedBytes p byteLength=>
  simp only [mapType,mapFixedBytesType,bind_ok,rejectWhen_ok,exists_const,pure_ok] at h
  obtain ⟨-,-,rfl⟩:=h
  exact ⟨trivial,rfl,rfl,writes_nil⟩
 | nil=>simp [mapType] at h
 | unset p=>simp [mapType] at h

lemma mapField_written (field:Field) : FieldWritten field := by
 induction field using Field.tree_induction with
 | hnil=>
  intro path mapped diagnostics h
  simp [mapField] at h
 | hmk a t ih=>
  intro path field diagnostics h
  simp only [mapField,bind_ok,refuseType] at h
  obtain ⟨_,-,mapped,hm,hp⟩:=h
  have ht:mapType t path=.ok mapped:=(mapError_ok _ _ _).1 hm
  have hw:=mapType_written ih ht
  obtain ⟨hok,hs,hd,hc⟩:=
   mapPresence_writes hp hw.composite hw.sqlType hw.checks
  exact ⟨⟨hok,hw.mappable⟩,hs,hd,hc⟩
end

def tableColumns (fields:List Field) : List (String×ColumnType) :=
 structColumns fields (fieldColumns fields)

def tableEntries (fields:List Field) : List (String×ColumnEntry) :=
 structEntries (.base .bool,"false") caseEntry fields (fields.map fieldEntry)

def tableChecks (fields:List Field) : List Check:=structChecks fields (allChecks fields)

variable {diagnostics:List MappingDiagnostic}
lemma addConstraint_expressions {validations:List Validation}
 {s:GoMap String String×List Constraint} (h:validations.foldlM (addConstraint diagnostics) (∅,[])=.ok s) :
 s.2.map (fun c=>c.expression)=validations.map fun v=>v.expression := by
 refine foldlM_invariant (I := fun before s=>
  s.2.map (fun c=>c.expression)=before.map fun v=>v.expression)
  (fun before v rest s t _ hs ht=>?_) rfl h
 simp only [addConstraint,bind_ok,rejectWhen_ok,exists_const,pure_ok] at ht
 obtain ⟨-,rfl⟩:=ht
 simp [hs]

/-- The table of a dataset is the layout of its fields, written out. -/
structure TableWritten (fields:List Field) (table:TableSchema) : Prop where
 scope : ScopeOk fields
 mappable : MappableFields fields
 columns : table.columns.map (fun c=>(c.name,c.type,c.defaultExpression)) =
  (tableEntries fields).map columnText
 constraints : table.constraints.map (fun c=>c.expression) =
  (tableChecks fields).map fun c=>c.columnExpr.render
 clean : ∀c∈tableChecks fields,Clean c

lemma schema_written {dataset:DatasetSchema} {table:TableSchema}
 (h:schema dataset=.ok (table,diagnostics)) :
 TableWritten dataset.fields table := by
 simp only [schema,bind_ok,refuse_ok,pure_ok,Prod.exists,Prod.mk.injEq] at h
 obtain ⟨_,-,_,-,scope,hs,names,constraints,hc,rfl,rfl⟩:=h
 obtain ⟨hok,hm,hg⟩:=mapScope_written (fun f _=>mapField_written f) hs
 obtain ⟨vs,hvs,hw⟩:=hg.validations
 have hv:scope.validations=vs:=hvs
 have hex:=addConstraint_expressions hc
 unfold tableScope at hex ⊢
 by_cases hem : scope.declarations=[]
 · have hf:=hg.declarations_eq_nil.1 hem
   rw [if_pos hem] at hex ⊢
   have hu:Writes (scopeText true) (scope.validations ++
     [⟨"<dataset>","unit",quoteIdentifier unitName++" = false"⟩])
     (tableChecks dataset.fields):=by
    rw [List.isEmpty_iff.1 hf] at hw
    rw [tableChecks,structChecks,if_pos hf,hv]
    refine hw.append (writes_singleton ?_ ⟨by decide,trivial⟩)
    exact congrArg (· ++ " = false") (quoteIdentifier_eq unitName)
   refine ⟨hok,hm,?_,hex.trans hu.expressions,hu.clean⟩
   rw [tableEntries,structEntries,if_pos hf]
   rfl
 · have hf:¬dataset.fields.isEmpty=true:=
    fun h=>hem (hg.declarations_eq_nil.2 h)
   rw [if_neg hem] at hex ⊢
   have ha:Writes (scopeText true) scope.validations (tableChecks dataset.fields):=by
    rw [tableChecks,structChecks,if_neg hf,hv]
    exact hw
   refine ⟨hok,hm,?_,hex.trans ha.expressions,ha.clean⟩
   rw [tableEntries,structEntries,if_neg hf,map_map]
   exact hg.declarations
end InvariantProtocol.ClickHouseLayout
