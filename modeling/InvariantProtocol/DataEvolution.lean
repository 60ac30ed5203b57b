import InvariantProtocol.GoResult
import InvariantProtocol.DataSchema
namespace InvariantProtocol.DataEvolution
open GoResult DataSchema

def compatibleEnumEvolution (previous current:EnumType) : Bool :=
 previous.fullName=current.fullName && previous.closed=current.closed &&
  previous.values.all fun value=>
   (current.values.map fun v=>(v.name,v.number)).contains (value.name,value.number)

/-- The shape of one node; children are compared under their own identities. -/
def sameLogicalShape : DataType → DataType → Bool
 | .nil,.nil=>true
 | .primitive p k,.primitive p' k' => p=p' && k=k'
 | .enum _ e,.enum _ e' => compatibleEnumEvolution e e'
 | .struct p _,.struct p' _=>p=p'
 | .list _ _ n,.list _ _ n' => n=n'
 | .map _ _ _,.map _ _ _=>true
 | .timestamp p u z,.timestamp p' u' z' => p=p' && u=u' && z=z'
 | .duration p u,.duration p' u' => p=p' && u=u'
 | .json p k,.json p' k' => p=p' && k=k'
 | .decimal _ n s,.decimal _ n' s' => n=n' && s=s'
 | .uuid _,.uuid _=>true
 | .fixedBytes _ n,.fixedBytes _ n' => n=n'
 | _,_=>false

def validateChange (previous current:Field) : Result Unit:=do
 let p:=previous.attributes
 let c:=current.attributes
 rejectIf (p.presence≠c.presence ∨ p.nullable≠c.nullable)
  (.errorf "protobuf presence changed for stable_id %d; use a new protobuf field number"
   [.int c.stableId])
 rejectIf (p.oneof≠c.oneof)
  (.errorf "protobuf oneof changed for stable_id %d; use a new protobuf field number"
   [.int c.stableId])
 rejectIf (p.hasDefault≠c.hasDefault ∨ p.protobufDefault≠c.protobufDefault)
  (.errorf "protobuf default changed for stable_id %d; use a new protobuf field number"
   [.int c.stableId])
 rejectIf (sameLogicalShape previous.type current.type=false)
  (.errorf "protobuf logical shape changed for stable_id %d; use a new protobuf field number"
   [.int c.stableId])

lemma validateChange_ok {previous current:Field} : validateChange previous current=.ok () ↔
  (previous.attributes.presence=current.attributes.presence ∧
   previous.attributes.nullable=current.attributes.nullable) ∧
  previous.attributes.oneof=current.attributes.oneof ∧
  (previous.attributes.hasDefault=current.attributes.hasDefault ∧
   previous.attributes.protobufDefault=current.attributes.protobufDefault) ∧
  sameLogicalShape previous.type current.type=true := by
 simp only [validateChange,bind_ok,rejectIf_ok,exists_const,not_or,not_not,Bool.not_eq_false]
end InvariantProtocol.DataEvolution
