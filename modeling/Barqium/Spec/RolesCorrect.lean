import Barqium.Native.ControlApi.Http

/-!
# Role checks on arbitrary claims

`TenantScope` and `RequireRole` read the role claim of a token in two ways. The first asserts
that a claim that is there is a string, the second takes anything else for the empty role.

## Key results

- `tenantScope_role`, `tenantScope_panics`: what the first one does for a role claim
- `rolesAgree_iff`: the claims on which both answer and agree
-/

namespace Barqium.Native.ControlApi

variable {roles : List String} {token : Token}

/-! ## The two middlewares -/

/-- The middleware calls the next handler or answers 403. -/
def Decides (r : Except Response Unit) : Prop :=
  r = .ok () ∨ ∃ resp, r = .error resp ∧ resp.status = 403

/-- The check of the own tenant lets in or refuses. -/
private theorem decides_ownTenant (tenantParam : String) (token : Token) :
    Decides (tenantScope.ownTenant tenantParam token) := by
  unfold tenantScope.ownTenant
  by_cases hparam : tenantParam = ""
  · exact .inl (if_pos hparam)
  · rw [if_neg hparam]
    simp only
    split
    · exact .inr ⟨_, rfl, rfl⟩
    · exact .inl rfl

/-- A token is bound to one tenant at most. -/
private theorem exists_ownTenant_ne (token : Token) :
    ∃ tenantParam, tenantScope.ownTenant tenantParam token ≠ .ok () := by
  -- a longer text than the claim is another one
  refine ⟨((token.get "tenant_id").bind Json.asStr).getD "" ++ "x", ?_⟩
  generalize hclaim : ((token.get "tenant_id").bind Json.asStr).getD "" = claim
  have hempty : claim ++ "x" ≠ "" := by
    intro h
    have hlen := congrArg String.length h
    simp at hlen
  have hother : claim ≠ claim ++ "x" := by
    intro h
    have hlen := congrArg String.length h
    simp at hlen
  unfold tenantScope.ownTenant
  simp [hempty, hclaim, hother]

/-- Without a role the token has its own tenant. -/
private theorem tenantScope_absent (h : token.get "role" = none) (tenantParam : String) :
    tenantScope roles tenantParam (some token) = tenantScope.ownTenant tenantParam token := by
  simp only [tenantScope, h]

/-- Admins have every tenant, other roles the own one. -/
theorem tenantScope_role {role : String} (h : token.get "role" = some (.str role))
    (tenantParam : String) :
    tenantScope roles tenantParam (some token) =
      if role ∈ roles then .ok () else tenantScope.ownTenant tenantParam token := by
  simp only [tenantScope, h, List.contains_iff_mem]

/-- A role claim that is no string makes the middleware panic. -/
theorem tenantScope_panics {v : Json} (h : token.get "role" = some v)
    (hv : ¬ ∃ role, v = .str role) (tenantParam : String) :
    tenantScope roles tenantParam (some token) = .error panicked := by
  simp only [tenantScope, h]
  cases v with
  | str role => exact absurd ⟨role, rfl⟩ hv
  | null | bool | num | arr | obj => rfl

/-- The role that counts is the string under `role`, or the empty one. -/
private theorem requireRole_role (roles : List String) (token : Token) :
    requireRole roles (some token) =
      if ((token.get "role").bind Json.asStr).getD "" ∈ roles then .ok ()
      else .error (httpError "forbidden: insufficient role" 403) := by
  simp only [requireRole, List.contains_iff_mem]

/-! ## Agreement -/

/-- The token has every tenant. -/
def HasEveryTenant (roles : List String) (token : Token) : Prop :=
  ∀ tenantParam, tenantScope roles tenantParam (some token) = .ok ()

/-- Both middlewares decide, and a token has every tenant exactly if its role is accepted. -/
def RolesAgree (roles : List String) (token : Token) : Prop :=
  (∀ tenantParam, Decides (tenantScope roles tenantParam (some token))) ∧
    Decides (requireRole roles (some token)) ∧
    (HasEveryTenant roles token ↔ requireRole roles (some token) = .ok ())

/-- A role claim that is there is a string. If the empty role is in the list, the token has a
    role claim. -/
def RoleClaimed (roles : List String) (token : Token) : Prop :=
  (∀ v, token.get "role" = some v → ∃ role, v = .str role) ∧
    ("" ∈ roles → (token.get "role").isSome)

/-- The check of the role lets in or refuses. -/
private theorem decides_requireRole (roles : List String) (token : Token) :
    Decides (requireRole roles (some token)) := by
  rw [requireRole_role]
  split
  · exact .inl rfl
  · exact .inr ⟨_, rfl, rfl⟩

/-- The check of the role lets in whoever has one of the roles. -/
private theorem requireRole_eq_ok :
    requireRole roles (some token) = .ok () ↔
      ((token.get "role").bind Json.asStr).getD "" ∈ roles := by
  rw [requireRole_role]
  split
  · simp [*]
  · simp [*]

/-- A role that is a string counts in both checks. -/
private theorem hasEveryTenant_role {role : String} (h : token.get "role" = some (.str role)) :
    HasEveryTenant roles token ↔ role ∈ roles := by
  constructor
  · intro hevery
    by_contra hrole
    obtain ⟨tenantParam, hne⟩ := exists_ownTenant_ne token
    have hok := hevery tenantParam
    rw [tenantScope_role h, if_neg hrole] at hok
    exact hne hok
  · intro hrole tenantParam
    rw [tenantScope_role h, if_pos hrole]

/-- Without a role they agree if no empty one is asked for. -/
private theorem rolesAgree_absent (h : token.get "role" = none) :
    RolesAgree roles token ↔ "" ∉ roles := by
  -- without a role the token has its own tenant only
  have hevery : ¬ HasEveryTenant roles token := by
    intro hevery
    obtain ⟨tenantParam, hne⟩ := exists_ownTenant_ne token
    exact hne ((tenantScope_absent h tenantParam).symm.trans (hevery tenantParam))
  have hdecides : ∀ tenantParam, Decides (tenantScope roles tenantParam (some token)) := by
    intro tenantParam
    rw [tenantScope_absent h]
    exact decides_ownTenant tenantParam token
  have haccepts : requireRole roles (some token) = .ok () ↔ "" ∈ roles := by
    rw [requireRole_eq_ok, h]
    rfl
  simp [RolesAgree, hdecides, decides_requireRole, haccepts, hevery]

/-- With a string they agree. -/
private theorem rolesAgree_role {role : String} (h : token.get "role" = some (.str role)) :
    RolesAgree roles token := by
  refine ⟨fun tenantParam => ?_, decides_requireRole roles token, ?_⟩
  · rw [tenantScope_role h]
    split
    · exact .inl rfl
    · exact decides_ownTenant tenantParam token
  · rw [hasEveryTenant_role h, requireRole_eq_ok, h]
    rfl

/-- With any other value they do not. -/
private theorem not_rolesAgree {v : Json} (h : token.get "role" = some v)
    (hv : ¬ ∃ role, v = .str role) : ¬ RolesAgree roles token := by
  rintro ⟨hdecides, -, -⟩
  have hpanic := hdecides ""
  rw [tenantScope_panics h hv] at hpanic
  rcases hpanic with hok | ⟨resp, hresp, hstatus⟩
  · cases hok
  · obtain rfl := Except.error.inj hresp
    exact absurd hstatus (by decide)

/-- The middlewares answer and agree exactly on the tokens whose role claim is a string or
    absent, and is not absent where the empty role is in the list. -/
theorem rolesAgree_iff (roles : List String) (token : Token) :
    RolesAgree roles token ↔ RoleClaimed roles token := by
  unfold RoleClaimed
  cases h : token.get "role" with
  | none => simp [rolesAgree_absent h]
  | some v =>
    by_cases hv : ∃ role, v = .str role
    · obtain ⟨role, rfl⟩ := hv
      simp [rolesAgree_role h]
    · simp [not_rolesAgree h hv, hv]

/-- A token with a list of roles. -/
def listedRoles : Token := ⟨[("role", .arr [.str "admin"]), ("tenant_id", .str "t")]⟩

/-- A list of roles is answered with a panic, though the other middleware rejects it. -/
theorem listedRoles_panic :
    tenantScope ["admin"] "t" (some listedRoles) = .error panicked ∧
      ¬ RolesAgree ["admin"] listedRoles := by
  have hpanic : tenantScope ["admin"] "t" (some listedRoles) = .error panicked := by rfl
  refine ⟨hpanic, ?_⟩
  rintro ⟨hdecides, -, -⟩
  rcases hdecides "t" with hok | ⟨resp, hresp, hstatus⟩
  · rw [hpanic] at hok
    cases hok
  · obtain rfl := Except.error.inj (hpanic.symm.trans hresp)
    exact absurd hstatus (by decide)

end Barqium.Native.ControlApi
