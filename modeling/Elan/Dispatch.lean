import Elan.TableScan

/-! Which dataset a request stands for. The catalog identifies a dataset by namespace and
name; a request carries the address of the executor and the name. -/
namespace Elan
namespace Dispatch

open RemoteTableScanExec

def scanOf (schemaOf : DatasetInfo → Schema) (filters : List Expr) (limit : Option ℕ)
    (d : DatasetInfo) : RemoteTableScanExec :=
  ⟨d,schemaOf d,filters,limit⟩

theorem append_cancel_iff (before quote clause rest x y : String) :
    before ++ x ++ quote ++ clause ++ rest = before ++ y ++ quote ++ clause ++ rest ↔ x = y := by
  refine ⟨fun h => ?_,fun h => by rw [h]⟩
  simp only [← String.toList_inj,String.toList_append,List.append_left_inj,
    List.append_right_inj] at h
  exact String.toList_inj.mp h

/-- For fixed filters and limit the text determines the name, and nothing else. -/
theorem buildSql_eq_iff (schemaOf : DatasetInfo → Schema) (filters : List Expr)
    (limit : Option ℕ) (d d' : DatasetInfo) :
    (scanOf schemaOf filters limit d).buildSql = (scanOf schemaOf filters limit d').buildSql ↔
      d.name = d'.name :=
  append_cancel_iff _ _ _ _ _ _

theorem request_eq_ok_iff (overflowChecks : Bool) (n : RemoteTableScanExec)
    (r : String × String) :
    n.request overflowChecks = .ok r ↔
      executorUrl overflowChecks n.dataset.executorEndpoint = .ok r.1 ∧ r.2 = n.buildSql := by
  unfold request
  cases h : executorUrl overflowChecks n.dataset.executorEndpoint with
  | error e => simp [bind,Except.bind]
  | ok url => simp [bind,Except.bind,Prod.ext_iff,eq_comm]

/-- Two datasets with different identities never send the same request. -/
def RequestsDistinct (overflowChecks : Bool) (schemaOf : DatasetInfo → Schema)
    (filters : List Expr) (limit : Option ℕ) (catalog : List DatasetInfo) : Prop :=
  ∀ d ∈ catalog, ∀ d' ∈ catalog, (d.ns,d.name) ≠ (d'.ns,d'.name) →
    d.executorEndpoint = d'.executorEndpoint →
    ∀ r, (scanOf schemaOf filters limit d).request overflowChecks = .ok r →
      (scanOf schemaOf filters limit d').request overflowChecks ≠ .ok r

/-- At every endpoint a request can be sent to, each name belongs to one namespace. -/
def NamesUnambiguous (overflowChecks : Bool) (catalog : List DatasetInfo) : Prop :=
  ∀ d ∈ catalog, ∀ d' ∈ catalog, d.executorEndpoint = d'.executorEndpoint →
    (∃ url, executorUrl overflowChecks d.executorEndpoint = .ok url) →
    d.name = d'.name → d.ns = d'.ns

theorem request_eq_of_name_eq {overflowChecks : Bool} {schemaOf : DatasetInfo → Schema}
    {filters : List Expr} {limit : Option ℕ} {d d' : DatasetInfo} (hname : d.name = d'.name)
    (hep : d.executorEndpoint = d'.executorEndpoint) :
    (scanOf schemaOf filters limit d).request overflowChecks =
      (scanOf schemaOf filters limit d').request overflowChecks := by
  unfold request
  rw [(buildSql_eq_iff schemaOf filters limit d d').mpr hname]
  simp only [scanOf,hep]

/-- Requests keep the datasets of a catalog apart exactly when no two namespaces share a
name at one endpoint. -/
theorem requestsDistinct_iff (overflowChecks : Bool) (schemaOf : DatasetInfo → Schema)
    (filters : List Expr) (limit : Option ℕ) (catalog : List DatasetInfo) :
    RequestsDistinct overflowChecks schemaOf filters limit catalog ↔
      NamesUnambiguous overflowChecks catalog := by
  constructor
  · intro hdist d hd d' hd' hep ⟨url,hurl⟩ hname
    by_contra hns
    have hreq := (request_eq_ok_iff overflowChecks (scanOf schemaOf filters limit d)
      (url,_)).mpr ⟨hurl,rfl⟩
    refine hdist d hd d' hd' (by simp [hns]) hep _ hreq ?_
    rw [← request_eq_of_name_eq hname hep,hreq]
  · intro hnames d hd d' hd' hne hep r hr hr'
    obtain ⟨hurl,hsql⟩ := (request_eq_ok_iff _ _ _).mp hr
    obtain ⟨-,hsql'⟩ := (request_eq_ok_iff _ _ _).mp hr'
    have hname := (buildSql_eq_iff schemaOf filters limit d d').mp (hsql.symm.trans hsql')
    exact hne (by rw [hname,hnames d hd d' hd' hep ⟨r.1,hurl⟩ hname])

/-- Two namespaces with a table of one name on one executor: the requests coincide. -/
theorem requests_collide :
    ¬ RequestsDistinct true (fun _ => []) [] none
      [sampleDataset "crm" "accounts" "elan-executor:50055",
        sampleDataset "finance" "accounts" "elan-executor:50055"] := by
  intro hdist
  have hurl : executorUrl true "elan-executor:50055" = .ok "http://elan-executor:50056/sql" := by
    decide
  have hreq := (request_eq_ok_iff true (scanOf (fun _ => []) [] none
    (sampleDataset "crm" "accounts" "elan-executor:50055")) (_,_)).mpr ⟨hurl,rfl⟩
  exact hdist (sampleDataset "crm" "accounts" "elan-executor:50055") (by simp)
    (sampleDataset "finance" "accounts" "elan-executor:50055") (by simp)
    (by decide) rfl _ hreq ((request_eq_of_name_eq rfl rfl).symm.trans hreq)

end Dispatch
end Elan
