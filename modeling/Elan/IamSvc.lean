import Elan.IamEngine
import Elan.IamStore

/-! The policy service: each handler runs its statements, and a policy write is followed by
a reload of the engine. -/
namespace Elan

/-- A policy as requests and responses carry it; an absent text is empty. -/
structure PolicyProto where
  policyId : String
  subjectName : String
  subjectType : String
  resourcePattern : String
  action : String
  effect : Int32
  rowFilter : String
  columnMaskJson : String
  priority : Int32
  deriving DecidableEq

def effectText (effect : Int32) : String := if effect = 1 then "Deny" else "Allow"

def optionalText (s : String) : Option String := if s = "" then none else some s

def subjectTypeText : SubjectType → String
  | .user => "user"
  | .group => "group"

def effectNumber : PolicyEffect → Int32
  | .allow => 0
  | .deny => 1

def PolicyProto.ofPolicy (p : Policy) : PolicyProto where
  policyId := p.id.toString
  subjectName := p.subjectName
  subjectType := subjectTypeText p.subjectType
  resourcePattern := p.resourcePattern
  action := p.action
  effect := effectNumber p.effect
  rowFilter := p.rowFilter.getD ""
  columnMaskJson := p.columnMaskJson.getD ""
  priority := p.priority

/-- The service: its store, and the engine that access checks are answered from. -/
structure IamSvc where
  store : IamTables
  engine : SnapshotIamEngine
  deriving DecidableEq

/-- What one call leaves to its surroundings: fresh identifiers and the order of ties. -/
structure Choices where
  firstUuid : Uuid
  secondUuid : Uuid
  order : QueryOrder

namespace IamSvc

def reloadEngine (svc : IamSvc) (order : QueryOrder) : Except StoreError Unit × IamSvc :=
  match IamStore.listPolicies order svc.store none with
  | .error e => (.error e,svc)
  | .ok policies => (.ok (),{ svc with engine := svc.engine.reload policies })

def listPolicies (svc : IamSvc) (order : QueryOrder) (subjectName : String) :
    Except StoreError (List PolicyProto) :=
  match IamStore.listPolicies order svc.store (optionalText subjectName) with
  | .error e => .error e
  | .ok policies => .ok (policies.map PolicyProto.ofPolicy)

def createPolicy (svc : IamSvc) (c : Choices) (p : PolicyProto) :
    Except StoreError String × IamSvc :=
  match IamStore.createPolicy svc.store c.firstUuid c.secondUuid p.subjectName p.subjectType
    p.resourcePattern p.action (effectText p.effect) (optionalText p.rowFilter)
    (optionalText p.columnMaskJson) p.priority with
  | (.error e,t) => (.error e,{ svc with store := t })
  | (.ok policyId,t) =>
    match reloadEngine { svc with store := t } c.order with
    | (.error e,svc) => (.error e,svc)
    | (.ok _,svc) => (.ok policyId,svc)

def deletePolicy (svc : IamSvc) (c : Choices) (policyId : String) :
    Except StoreError Unit × IamSvc :=
  reloadEngine { svc with store := IamStore.deletePolicy svc.store policyId } c.order

def createSubject (svc : IamSvc) (c : Choices) (subjectType name : String) :
    Except StoreError String × IamSvc :=
  match IamStore.getOrCreateSubject svc.store c.firstUuid subjectType name with
  | (r,t) => (r,{ svc with store := t })

def addGroupMember (svc : IamSvc) (c : Choices) (groupName userName : String) :
    Except StoreError Unit × IamSvc :=
  match IamStore.addGroupMember svc.store c.firstUuid c.secondUuid groupName userName with
  | (r,t) => (r,{ svc with store := t })

end IamSvc
end Elan
