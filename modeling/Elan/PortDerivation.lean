import Elan.Executor

/-! The port of the HTTP service: queries are posted to it, and the executor listens on it. Both
sides derive it from the port of the endpoint. -/
namespace Elan
namespace PortDerivation

/-- The queries for an endpoint go to the port after the one it names, and an executor of that
port listens there. -/
def PortsAgree (queryChecks executorChecks : Bool) (isIp : String → Bool) (endpoint : String) :
    Prop :=
  ∀ host p, parseEndpoint endpoint = .ok (host,p) →
    (∃ httpPort : UInt16, httpPort.toNat = p.toNat + 1 ∧ executorUrl queryChecks endpoint =
      .ok ("http://" ++ host ++ ":" ++ toString httpPort.toNat ++ "/sql")) ∧
    ∀ cfg : ExecutorConfig, cfg.bindPort = p → isIp cfg.bindHost = true →
      ∃ httpPort : UInt16, httpPort.toNat = p.toNat + 1 ∧
        cfg.httpAddr executorChecks isIp = .ok ⟨cfg.bindHost,httpPort⟩

def EndsInLastPort (endpoint : String) : Prop :=
  ∃ host port, endpoint = host ++ ":" ++ port ∧ IsDecimal port 65535

theorem endsInLastPort_iff {endpoint : String} :
    EndsInLastPort endpoint ↔ ∃ host, parseEndpoint endpoint = .ok (host,65535) := by
  simp only [EndsInLastPort,parseEndpoint_eq_ok]
  rfl

theorem dialled_iff {overflowChecks : Bool} {endpoint host : String} {p : UInt16}
    (h : parseEndpoint endpoint = .ok (host,p)) :
    (∃ httpPort : UInt16, httpPort.toNat = p.toNat + 1 ∧ executorUrl overflowChecks endpoint =
      .ok ("http://" ++ host ++ ":" ++ toString httpPort.toNat ++ "/sql")) ↔
      p.toNat ≠ 65535 := by
  constructor
  · rintro ⟨httpPort,hnext,-⟩
    have hlt := httpPort.toNat_lt
    omega
  · intro hp
    obtain ⟨httpPort,hadd,hnext⟩ := (addU16_one_iff overflowChecks).mpr hp
    exact ⟨httpPort,hnext,by simp [executorUrl,h,hadd,bind,Except.bind]⟩

theorem listens_of_ne {overflowChecks : Bool} {isIp : String → Bool} {cfg : ExecutorConfig}
    (hp : cfg.bindPort.toNat ≠ 65535) (hip : isIp cfg.bindHost = true) :
    ∃ httpPort : UInt16, httpPort.toNat = cfg.bindPort.toNat + 1 ∧
      cfg.httpAddr overflowChecks isIp = .ok ⟨cfg.bindHost,httpPort⟩ := by
  obtain ⟨httpPort,hadd,hnext⟩ := (addU16_one_iff overflowChecks).mpr hp
  refine ⟨httpPort,hnext,?_⟩
  simp only [ExecutorConfig.httpAddr,hadd,SocketAddr.parse_append hip]

/-- Endpoints are read as they are printed, and split at the last colon; both sides come to the
next port, unless the port is the last. -/
theorem portsAgree_iff (queryChecks executorChecks : Bool) (isIp : String → Bool) :
    (∀ host p, parseEndpoint (host ++ ":" ++ toString p.toNat) = .ok (host,p)) ∧
      (∀ endpoint host p, parseEndpoint endpoint = .ok (host,p) ↔
        ∃ port, endpoint = host ++ ":" ++ port ∧ ':' ∉ port.toList ∧ IsDecimal port p.toNat) ∧
      ∀ endpoint, PortsAgree queryChecks executorChecks isIp endpoint ↔
        ¬ EndsInLastPort endpoint := by
  refine ⟨parseEndpoint_append,?_,?_⟩
  · intro endpoint host p
    rw [parseEndpoint_eq_ok]
    refine exists_congr fun port => and_congr_right fun _ => ?_
    exact ⟨fun h => ⟨h.not_mem_colon,h⟩,And.right⟩
  · intro endpoint
    rw [endsInLastPort_iff]
    constructor
    · rintro h ⟨host,hparse⟩
      exact (dialled_iff hparse).mp (h host 65535 hparse).1 rfl
    · intro hlast host p hparse
      have hp : p.toNat ≠ 65535 := by
        intro hmax
        obtain rfl : p = 65535 := UInt16.toNat_inj.mp hmax
        exact hlast ⟨host,hparse⟩
      refine ⟨(dialled_iff hparse).mpr hp,?_⟩
      rintro cfg rfl hip
      exact listens_of_ne hp hip

/-- After the last port comes a trap, or port 0. -/
theorem last_port_overflows :
    (¬ ∀ queryChecks executorChecks isIp endpoint,
      PortsAgree queryChecks executorChecks isIp endpoint) ∧
      executorUrl true "elan-executor:65535" = .error .panic ∧
      executorUrl false "elan-executor:65535" = .ok "http://elan-executor:0/sql" := by
  refine ⟨fun h => ?_,by decide,by decide⟩
  have hlast : parseEndpoint "elan-executor:65535" = .ok ("elan-executor",65535) :=
    parseEndpoint_append "elan-executor" 65535
  exact (dialled_iff hlast).mp (h true true (fun _ => true) _ _ _ hlast).1 rfl

end PortDerivation
end Elan
