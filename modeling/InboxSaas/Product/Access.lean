import InboxSaas.Product.UuidText
import InboxSaas.Product.Statements

/-!
# Access grants and entitlements
-/

namespace InboxSaas.Product

inductive Permission where
  | read
  | write
  deriving DecidableEq, Repr

inductive AccessScope where
  | organization
  | workspace (workspaceId : Uuid)
  deriving DecidableEq, Repr

structure AccessGrant where
  organizationId : Uuid
  permission : Permission
  scope : AccessScope
  deriving DecidableEq, Repr

structure AccessRequest where
  organizationId : Uuid
  permission : Permission
  scope : AccessScope
  deriving DecidableEq, Repr

def isAuthorized (grants : List AccessGrant) (request : AccessRequest) : Bool :=
  grants.any (fun grant =>
    if grant.organizationId ≠ request.organizationId then false
    else if grant.permission = .read ∧ request.permission ≠ .read then false
    else match grant.scope with
      | .organization => true
      | .workspace workspaceId => request.scope = .workspace workspaceId)

structure OrganizationEntitlement where
  organizationId : JsString
  entitled : Bool
  deriving DecidableEq, Repr

def getOrganizationEntitlement (organizationId : JsString) :
    Except JsError OrganizationEntitlement :=
  if organizationId = [] then .error (.new "Organization ID is required")
  else .ok ⟨organizationId, true⟩

theorem uuidOut_ne_nil (id : Uuid) : uuidOut id ≠ [] := by
  simp [uuidOut, uuidText]

/-- Every stored organization is entitled. -/
theorem getOrganizationEntitlement_uuidOut (id : Uuid) :
    getOrganizationEntitlement (uuidOut id) = .ok ⟨uuidOut id, true⟩ := by
  rw [getOrganizationEntitlement, if_neg (uuidOut_ne_nil id)]

end InboxSaas.Product
