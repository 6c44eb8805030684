import Elan.Replication

/-! Answers that are read out of a changing source at once, and sent to those who asked item by
item over channels of a bounded size. -/
namespace Streaming

open TransitionSystem

inductive Reader
  | reading | complete | gone
  deriving DecidableEq

/-- An answer on its way: what is still to be sent, what is in the channel, and what was read. -/
structure Delivery (α : Type) where
  toSend : List α
  queue : List α
  received : List α
  reader : Reader
  deriving DecidableEq

/-- What happens to one delivery. The sender gives up when it finds the reader gone. -/
inductive Move
  | send | receive | finish | leave | giveUp
  deriving DecidableEq

namespace Delivery

variable {α : Type}

def start (items : List α) : Delivery α := ⟨items,[],[],.reading⟩

/-- The sender waits while the channel is full; the reader waits while it is empty, and is done
when the sender is done as well. -/
def step (capacity : ℕ) (m : Move) (d : Delivery α) : Option (Delivery α) :=
  match m with
  | .send =>
    match d.toSend with
    | [] => none
    | x :: rest =>
      if d.reader ≠ .gone ∧ d.queue.length < capacity then
        some { d with toSend := rest, queue := d.queue ++ [x] }
      else none
  | .receive =>
    match d.queue with
    | [] => none
    | x :: rest =>
      if d.reader = .reading then some { d with queue := rest, received := d.received ++ [x] }
      else none
  | .finish =>
    if d.reader = .reading ∧ d.queue = [] ∧ d.toSend = [] then some { d with reader := .complete }
    else none
  | .leave => if d.reader = .reading then some { d with reader := .gone } else none
  | .giveUp => if d.reader = .gone ∧ d.toSend ≠ [] then some { d with toSend := [] } else none

/-- The reader has the items in their order, all of them if it saw the end. -/
structure Delivers (items : List α) (d : Delivery α) : Prop where
  flow : d.reader ≠ .gone → d.received ++ d.queue ++ d.toSend = items
  received : d.received <+: items
  complete : d.reader = .complete → d.received = items

variable {capacity : ℕ} {items : List α} {d d' : Delivery α} {m : Move}

theorem Delivers.start (items : List α) : (start items).Delivers items :=
  ⟨fun _ => rfl,List.nil_prefix,nofun⟩

/-- The invariant, from the flow alone, while the reader has not gone. -/
theorem Delivers.of_flow (hflow : d.received ++ d.queue ++ d.toSend = items)
    (hcomplete : d.reader = .complete → d.queue = [] ∧ d.toSend = []) : d.Delivers items := by
  refine ⟨fun _ => hflow,?_,?_⟩
  · rw [← hflow,List.append_assoc]
    exact List.prefix_append _ _
  · intro hdone
    obtain ⟨hqueue,hsend⟩ := hcomplete hdone
    simpa [hqueue,hsend] using hflow

theorem Delivers.step (h : d.Delivers items) (hstep : step capacity m d = some d') :
    d'.Delivers items := by
  obtain ⟨toSend,queue,received,reader⟩ := d
  cases m with
  | send =>
    cases toSend with
    | nil => cases hstep
    | cons x rest =>
      obtain ⟨⟨hreader,-⟩,hd'⟩ := Option.ite_none_right_eq_some.mp hstep
      cases hd'
      have hflow : received ++ queue ++ x :: rest = items := h.flow hreader
      refine ⟨fun _ => by simpa using hflow,h.received,?_⟩
      exact h.complete
  | receive =>
    cases queue with
    | nil => cases hstep
    | cons x rest =>
      obtain ⟨hreader,hd'⟩ := Option.ite_none_right_eq_some.mp hstep
      cases hd'
      have hflow : received ++ x :: rest ++ toSend = items := h.flow (by rw [hreader]; nofun)
      exact .of_flow (by simpa using hflow) (by rw [hreader]; nofun)
  | finish =>
    obtain ⟨⟨hreader,hqueue,hsend⟩,hd'⟩ := Option.ite_none_right_eq_some.mp hstep
    cases hd'
    exact .of_flow (h.flow (by rw [hreader]; nofun)) fun _ => ⟨hqueue,hsend⟩
  | leave =>
    obtain ⟨-,hd'⟩ := Option.ite_none_right_eq_some.mp hstep
    cases hd'
    exact ⟨fun hgone => absurd rfl hgone,h.received,nofun⟩
  | giveUp =>
    obtain ⟨⟨hreader,-⟩,hd'⟩ := Option.ite_none_right_eq_some.mp hstep
    cases hd'
    exact ⟨fun hgone => absurd hreader hgone,h.received,h.complete⟩

/-- How many moves there can still be. -/
def work (d : Delivery α) : ℕ :=
  2 * d.toSend.length + d.queue.length + if d.reader = .reading then 1 else 0

theorem work_step (hstep : step capacity m d = some d') : d'.work < d.work := by
  obtain ⟨toSend,queue,received,reader⟩ := d
  cases m with
  | send =>
    cases toSend with
    | nil => cases hstep
    | cons x rest =>
      obtain ⟨-,hd'⟩ := Option.ite_none_right_eq_some.mp hstep
      cases hd'
      simp only [work,List.length_append,List.length_cons,List.length_nil]
      omega
  | receive =>
    cases queue with
    | nil => cases hstep
    | cons x rest =>
      obtain ⟨-,hd'⟩ := Option.ite_none_right_eq_some.mp hstep
      cases hd'
      simp only [work,List.length_cons]
      omega
  | finish =>
    obtain ⟨⟨hreader,-⟩,hd'⟩ := Option.ite_none_right_eq_some.mp hstep
    obtain rfl : reader = .reading := hreader
    cases hd'
    simp [work]
  | leave =>
    obtain ⟨hreader,hd'⟩ := Option.ite_none_right_eq_some.mp hstep
    obtain rfl : reader = .reading := hreader
    cases hd'
    simp [work]
  | giveUp =>
    obtain ⟨⟨-,hsend⟩,hd'⟩ := Option.ite_none_right_eq_some.mp hstep
    cases hd'
    have hpos : 0 < toSend.length := List.length_pos_iff.mpr hsend
    simp only [work,List.length_nil]
    omega

/-- Where only the reader's leaving is possible, there is nothing left to do: the reader has all
of the items or has gone, and the sender is done. -/
theorem Delivers.settled (h : d.Delivers items) (hcapacity : 0 < capacity)
    (hstuck : ∀ m : Move, m ≠ .leave → Delivery.step capacity m d = none) :
    d.toSend = [] ∧ (d.reader = .complete ∧ d.received = items ∨ d.reader = .gone) := by
  obtain ⟨toSend,queue,received,reader⟩ := d
  cases reader with
  | gone =>
    have hgiveUp := hstuck .giveUp nofun
    exact ⟨by simpa [Delivery.step] using hgiveUp,.inr rfl⟩
  | complete =>
    have hreceived : received = items := h.complete rfl
    have hflow : received ++ queue ++ toSend = items := h.flow nofun
    rw [← hreceived,List.append_assoc,List.append_right_eq_self,List.append_eq_nil_iff] at hflow
    exact ⟨hflow.2,.inl ⟨rfl,hreceived⟩⟩
  | reading =>
    cases queue with
    | cons x rest => exact absurd (hstuck .receive nofun) (by simp [Delivery.step])
    | nil =>
      cases toSend with
      | cons x rest => exact absurd (hstuck .send nofun) (by simp [Delivery.step,hcapacity])
      | nil => exact absurd (hstuck .finish nofun) (by simp [Delivery.step])

end Delivery

/-! ### Many readers of one source -/

/-- A request, what was read for it, and how that gets to the reader. -/
structure Client (ρ ε α : Type) where
  request : ρ
  answer : Except ε (List α)
  delivery : Delivery α

/-- The requests so far, and the source they are answered from. -/
structure Service (σ ρ ε α : Type) where
  source : σ
  clients : List (Client ρ ε α)

inductive Action (A ρ : Type)
  | source (a : A)
  | ask (r : ρ)
  | move (i : ℕ) (m : Move)

section
variable {A σ ρ ε α : Type} {sourceStep : A → σ → Option σ} {read : σ → ρ → Except ε (List α)}
  {capacity : ℕ}

def Client.ask (read : σ → ρ → Except ε (List α)) (source : σ) (r : ρ) : Client ρ ε α :=
  ⟨r,read source r,.start ((read source r).toOption.getD [])⟩

/-- A request that failed is answered at once. -/
def Client.move (capacity : ℕ) (m : Move) (c : Client ρ ε α) : Option (Client ρ ε α) :=
  match c.answer with
  | .error _ => none
  | .ok _ => (c.delivery.step capacity m).map fun d => { c with delivery := d }

variable (sourceStep read capacity) in
def step (a : Action A ρ) (s : Service σ ρ ε α) : Option (Service σ ρ ε α) :=
  match a with
  | .source a => (sourceStep a s.source).map fun source => { s with source := source }
  | .ask r => some { s with clients := s.clients ++ [.ask read s.source r] }
  | .move i m =>
    match s.clients[i]? with
    | none => none
    | some c => (c.move capacity m).map fun c' => { s with clients := s.clients.set i c' }

def Client.Served (c : Client ρ ε α) : Prop :=
  ∀ items, c.answer = .ok items → c.delivery.Delivers items

theorem Client.Served.ask (source : σ) (r : ρ) : (Client.ask read source r).Served := by
  intro items hitems
  have hstart : (Client.ask read source r).delivery = .start items := by
    simp only [Client.ask] at hitems ⊢
    rw [hitems]
    rfl
  rw [hstart]
  exact .start items

/-- A move changes the delivery alone. -/
theorem Client.move_eq_some {c c' : Client ρ ε α} {m : Move} (h : c.move capacity m = some c') :
    c'.request = c.request ∧ c'.answer = c.answer ∧
      c.delivery.step capacity m = some c'.delivery := by
  unfold Client.move at h
  split at h
  · cases h
  · obtain ⟨d,hd,rfl⟩ := Option.map_eq_some_iff.mp h
    exact ⟨rfl,rfl,hd⟩

theorem step_move {s s' : Service σ ρ ε α} {i : ℕ} {m : Move}
    (h : step sourceStep read capacity (.move i m) s = some s') :
    ∃ c c', s.clients[i]? = some c ∧ c.move capacity m = some c' ∧
      s' = { s with clients := s.clients.set i c' } := by
  cases hc : s.clients[i]? with
  | none => simp [step,hc] at h
  | some c =>
    simp only [step,hc] at h
    obtain ⟨c',hc',rfl⟩ := Option.map_eq_some_iff.mp h
    exact ⟨c,c',rfl,hc',rfl⟩

theorem served_step {a : Action A ρ} {s s' : Service σ ρ ε α} (h : ∀ c ∈ s.clients, c.Served)
    (hstep : step sourceStep read capacity a s = some s') : ∀ c ∈ s'.clients, c.Served := by
  cases a with
  | source a =>
    obtain ⟨source,-,rfl⟩ := Option.map_eq_some_iff.mp hstep
    exact h
  | ask r =>
    cases hstep
    exact List.forall_mem_append.mpr ⟨h,List.forall_mem_singleton.mpr (.ask _ r)⟩
  | move i m =>
    obtain ⟨c,c',hc,hmove,rfl⟩ := step_move hstep
    obtain ⟨-,hanswer,hdelivery⟩ := Client.move_eq_some hmove
    intro d hd
    rcases List.mem_or_eq_of_mem_set hd with hold | rfl
    · exact h d hold
    · intro items hitems
      exact (h c (List.mem_of_getElem? hc) items (hanswer ▸ hitems)).step hdelivery

/-- What a client gets is the answer to its request at one moment of the run, in its order, and
all of it if the client sees the end. -/
theorem answers_are_snapshots {as : List (Action A ρ)} {source : σ} {s : Service σ ρ ε α}
    (hrun : run (step sourceStep read capacity) as ⟨source,[]⟩ = some s) {c : Client ρ ε α}
    (hc : c ∈ s.clients) :
    (∃ bs past, bs <+: as ∧ run (step sourceStep read capacity) bs ⟨source,[]⟩ = some past ∧
      c.answer = read past.source c.request) ∧
      ∀ items, c.answer = .ok items → c.delivery.Delivers items := by
  constructor
  · let Held (s : Service σ ρ ε α) (x : ρ × Except ε (List α)) : Prop :=
      ∃ c ∈ s.clients, (c.request,c.answer) = x
    let Shown (s : Service σ ρ ε α) (x : ρ × Except ε (List α)) : Prop := x.2 = read s.source x.1
    have hstep : ∀ a s t, step sourceStep read capacity a s = some t →
        ∀ x, Held t x → Held s x ∨ Shown s x := by
      rintro a s t ht _ ⟨c,hc,rfl⟩
      cases a with
      | source a =>
        obtain ⟨source,-,rfl⟩ := Option.map_eq_some_iff.mp ht
        exact .inl ⟨c,hc,rfl⟩
      | ask r =>
        cases ht
        rcases List.mem_append.mp hc with hold | hnew
        · exact .inl ⟨c,hold,rfl⟩
        · obtain rfl := List.mem_singleton.mp hnew
          exact .inr rfl
      | move i m =>
        obtain ⟨b,b',hb,hmove,rfl⟩ := step_move ht
        obtain ⟨hrequest,hanswer,-⟩ := Client.move_eq_some hmove
        rcases List.mem_or_eq_of_mem_set hc with hold | rfl
        · exact .inl ⟨c,hold,rfl⟩
        · exact .inl ⟨b,List.mem_of_getElem? hb,by rw [hrequest,hanswer]⟩
    have hnone : ∀ x, Held ⟨source,[]⟩ x → Shown ⟨source,[]⟩ x := by
      rintro x ⟨c,⟨⟩,-⟩
    have hheld : Held s (c.request,c.answer) := ⟨c,hc,rfl⟩
    exact held_was_shown hstep hnone hrun hheld
  · have hstep : ∀ a (s t : Service σ ρ ε α), (∀ c ∈ s.clients, c.Served) →
        step sourceStep read capacity a s = some t → ∀ c ∈ t.clients, c.Served :=
      fun a s t h ht => served_step h ht
    have hnone : ∀ c ∈ (⟨source,[]⟩ : Service σ ρ ε α).clients, c.Served := by
      rintro c ⟨⟩
    exact run_preserves hstep hnone hrun c hc

/-- When nothing but leaving can happen to a client, it has all of its answer or has gone. -/
theorem settled {c : Client ρ ε α} (h : c.Served) (hcapacity : 0 < capacity)
    (hstuck : ∀ m, m ≠ .leave → c.move capacity m = none) {items : List α}
    (hitems : c.answer = .ok items) : c.delivery.toSend = [] ∧
      (c.delivery.reader = .complete ∧ c.delivery.received = items ∨
        c.delivery.reader = .gone) := by
  apply (h items hitems).settled hcapacity
  intro m hm
  have hmove := hstuck m hm
  rw [Client.move,hitems] at hmove
  exact Option.map_eq_none_iff.mp hmove

def Action.isMove (i : ℕ) : Action A ρ → Bool
  | .move j _ => j = i
  | _ => false

/-- Each move of a delivery uses up some of its work, and nothing else adds to it. -/
theorem moves_bounded {as : List (Action A ρ)} {source : σ} {s : Service σ ρ ε α}
    (hrun : run (step sourceStep read capacity) as ⟨source,[]⟩ = some s) (i : ℕ) :
    (s.clients[i]? = none → as.countP (·.isMove i) = 0) ∧ ∀ c, s.clients[i]? = some c →
      as.countP (·.isMove i) + c.delivery.work ≤ 2 * (c.answer.toOption.getD []).length + 1 := by
  induction as using List.reverseRecOn generalizing s with
  | nil =>
    obtain rfl := run_nil.mp hrun
    exact ⟨fun _ => rfl,nofun⟩
  | append_singleton as a ih =>
    obtain ⟨t,ht,hs⟩ := run_concat.mp hrun
    obtain ⟨hnone,hsome⟩ := ih ht
    rw [List.countP_append,List.countP_singleton]
    cases a with
    | source a =>
      obtain ⟨source',-,rfl⟩ := Option.map_eq_some_iff.mp hs
      exact ⟨hnone,hsome⟩
    | ask r =>
      cases hs
      by_cases hi : i < t.clients.length
      · rw [List.getElem?_append_left hi]
        exact ⟨hnone,hsome⟩
      · have hzero := hnone (List.getElem?_eq_none_iff.mpr (by omega))
        refine ⟨fun _ => hzero,?_⟩
        intro c hc
        have hnew := List.mem_of_getElem? ((List.getElem?_append_right (by omega)).symm.trans hc)
        obtain rfl := List.mem_singleton.mp hnew
        rw [hzero]
        simp [Action.isMove,Client.ask,Delivery.start,Delivery.work]
    | move j m =>
      obtain ⟨b,b',hb,hmove,rfl⟩ := step_move hs
      obtain ⟨-,hanswer,hdelivery⟩ := Client.move_eq_some hmove
      have hj : j < t.clients.length := (List.getElem?_eq_some_iff.mp hb).1
      by_cases hij : j = i
      · subst hij
        rw [List.getElem?_set_self hj]
        refine ⟨nofun,?_⟩
        rintro _ ⟨⟩
        have hbound := hsome b hb
        have hless := Delivery.work_step hdelivery
        have hcounted : (Action.move j m : Action A ρ).isMove j = true := decide_eq_true rfl
        rw [hcounted,if_pos rfl,hanswer]
        omega
      · have hother : (Action.move j m : Action A ρ).isMove i = false := decide_eq_false hij
        rw [List.getElem?_set_ne hij,hother]
        exact ⟨hnone,hsome⟩

end

end Streaming
