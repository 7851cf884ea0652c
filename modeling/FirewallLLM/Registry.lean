import FirewallLLM.Runs
import Mathlib

/-! # The records and the tunnels of agents

The two maps of `IngressRegistry` and the calls that change them, of any number of tasks.  Each
map has a lock of its own, and the calls interleave at their lock sections: `register_tunnel`
inserts the tunnel and then the record, `unregister_agent` removes the record and then the
tunnel, and `sweep_stale` reads the records and then unregisters what it has found, one agent
after the other.  Clock readings come with the events.

`registry_in_step`: the maps have the same keys whenever no call is in progress, and a sweep
removes only agents that are still silent, in the runs in which no agent is registered and
unregistered at the same time and none is refreshed while a sweep has it on its list; every other
run has a prefix that the calls in progress can finish so that one of the two fails. -/

namespace FirewallLLM.Registry

open Runs (final Along)

/-- `AgentConn`. -/
structure AgentConn (F : Type) where
  agentId : String
  connectedAt : F
  lastSeen : F
deriving DecidableEq, Repr

/-- A call between two of its lock sections, and a call that has returned.  A sweep is about to
remove the record of the first agent that is left, or its tunnel. -/
inductive Task (F : Type) where
  | registering (agentId : String)
  | unregistering (agentId : String)
  | sweeping (now maxAge : F) (agentId : String) (rest : List String)
  | clearing (now maxAge : F) (agentId : String) (rest : List String)
  | done
deriving DecidableEq, Repr

/-- The two maps, where a sender is a number, and the calls. -/
structure State (F : Type) where
  agents : AList (fun _ : String => AgentConn F)
  tunnels : AList (fun _ : String => ℕ)
  tasks : List (Task F)

def init (F : Type) : State F := ⟨∅, ∅, []⟩

/-- A call starts with its first lock section, or one goes on with its next.  `stale` is what
the sweep has found, in the order in which it came across it. -/
inductive Event (F : Type) where
  | register (agentId : String) (sender : ℕ)
  | unregister (agentId : String)
  | touch (agentId : String) (now : F)
  | sweep (now maxAge : F) (stale : List String)
  | go (i : ℕ) (now : F)

section Machine

variable {F : Type} [Sub F] [LT F] [DecidableLT F]

/-- The agent has been silent for longer than `maxAge`. -/
def AgentConn.silent (conn : AgentConn F) (now maxAge : F) : Bool := now - conn.lastSeen > maxAge

/-- The next agent of a sweep. -/
def Task.sweepOn (now maxAge : F) : List String → Task F
  | [] => .done
  | agentId :: rest => .sweeping now maxAge agentId rest

/-- `get_mut` of `touch_agent`. -/
def State.touch (s : State F) (agentId : String) (now : F) : State F :=
  match s.agents.lookup agentId with
  | some conn => { s with agents := s.agents.insert agentId { conn with lastSeen := now } }
  | none => s

/-- The agents that a sweep finds. -/
def State.stale (s : State F) (now maxAge : F) : List String :=
  (s.agents.entries.filter (fun e => e.2.silent now maxAge)).map Sigma.fst

/-- The next lock section of a call. -/
def State.go (s : State F) (i : ℕ) (now : F) : Task F → State F
  | .registering agentId => { s with
      agents := s.agents.insert agentId ⟨agentId, now, now⟩
      tasks := s.tasks.set i .done }
  | .unregistering agentId => { s with
      tunnels := s.tunnels.erase agentId
      tasks := s.tasks.set i .done }
  | .sweeping n maxAge agentId rest => { s with
      agents := s.agents.erase agentId
      tasks := s.tasks.set i (.clearing n maxAge agentId rest) }
  | .clearing n maxAge agentId rest => { s with
      tunnels := s.tunnels.erase agentId
      tasks := s.tasks.set i (Task.sweepOn n maxAge rest) }
  | .done => s

/-- One lock section. -/
def step (s : State F) : Event F → State F
  | .register agentId sender => { s with
      tunnels := s.tunnels.insert agentId sender
      tasks := s.tasks ++ [.registering agentId] }
  | .unregister agentId => { s with
      agents := s.agents.erase agentId
      tasks := s.tasks ++ [.unregistering agentId] }
  | .touch agentId now => s.touch agentId now
  | .sweep now maxAge stale =>
      if stale.Perm (s.stale now maxAge) then
        { s with tasks := s.tasks ++ [Task.sweepOn now maxAge stale] }
      else s
  | .go i now => match s.tasks[i]? with
      | some task => s.go i now task
      | none => s

/-! ### What should hold -/

/-- No call is in progress. -/
def State.Quiet (s : State F) : Prop := ∀ task ∈ s.tasks, task = .done

/-- The maps have the same keys. -/
def State.SameKeys (s : State F) : Prop := ∀ agentId, agentId ∈ s.agents ↔ agentId ∈ s.tunnels

/-- After the event the maps have the same keys if no call is in progress, and an agent whose
record a sweep removes is still silent, by the time of the sweep. -/
def Good (s : State F) (e : Event F) : Prop :=
  ((step s e).Quiet → (step s e).SameKeys) ∧
    ∀ i now n maxAge agentId rest conn, e = .go i now →
      s.tasks[i]? = some (.sweeping n maxAge agentId rest) →
      s.agents.lookup agentId = some conn → conn.silent n maxAge = true

end Machine

/-! ### When it does -/

section Conditions

variable {F : Type} {tasks : List (Task F)} {t : Task F} {a : String}

/-- The call has inserted the tunnel of the agent and not yet its record. -/
def Task.Adding (agentId : String) : Task F → Prop
  | .registering a => a = agentId
  | _ => False

/-- The call has removed the record of the agent and not yet its tunnel. -/
def Task.Removing (agentId : String) : Task F → Prop
  | .unregistering a => a = agentId
  | .clearing _ _ a _ => a = agentId
  | _ => False

def Adds (tasks : List (Task F)) (agentId : String) : Prop := ∃ t ∈ tasks, t.Adding agentId

def Removes (tasks : List (Task F)) (agentId : String) : Prop := ∃ t ∈ tasks, t.Removing agentId

@[simp] theorem adds_cons : Adds (t :: tasks) a ↔ t.Adding a ∨ Adds tasks a := by
  simp only [Adds, List.mem_cons, exists_eq_or_imp]

@[simp] theorem removes_cons : Removes (t :: tasks) a ↔ t.Removing a ∨ Removes tasks a := by
  simp only [Removes, List.mem_cons, exists_eq_or_imp]

theorem sweepOn_adding (now maxAge : F) (rest : List String) :
    ¬ (Task.sweepOn now maxAge rest).Adding a := by
  cases rest <;> exact not_false

theorem sweepOn_removing (now maxAge : F) (rest : List String) :
    ¬ (Task.sweepOn now maxAge rest).Removing a := by
  cases rest <;> exact not_false

theorem perm_of_getElem? {i : ℕ} (h : tasks[i]? = some t) :
    tasks.Perm (t :: tasks.eraseIdx i) ∧
      ∀ t', (tasks.set i t').Perm (t' :: tasks.eraseIdx i) := by
  obtain ⟨hlt, rfl⟩ := List.getElem?_eq_some_iff.mp h
  exact ⟨(List.getElem_cons_eraseIdx_perm hlt).symm, fun t' => List.set_perm_cons_eraseIdx hlt t'⟩

variable [Sub F] [LT F]

/-- The list of a sweep is outdated for an agent that was seen at `seen`. -/
def Task.Outdated (agentId : String) (seen : F) : Task F → Prop
  | .sweeping n maxAge a rest => agentId ∈ a :: rest ∧ ¬ n - seen > maxAge
  | .clearing n maxAge _ rest => agentId ∈ rest ∧ ¬ n - seen > maxAge
  | _ => False

def Outdates (tasks : List (Task F)) (agentId : String) (seen : F) : Prop :=
  ∃ t ∈ tasks, t.Outdated agentId seen

@[simp] theorem outdates_cons {seen : F} :
    Outdates (t :: tasks) a seen ↔ t.Outdated a seen ∨ Outdates tasks a seen := by
  simp only [Outdates, List.mem_cons, exists_eq_or_imp]

theorem sweepOn_outdated {now maxAge seen : F} {rest : List String} :
    (Task.sweepOn now maxAge rest).Outdated a seen ↔ a ∈ rest ∧ ¬ now - seen > maxAge := by
  cases rest with
  | nil => simp [Task.sweepOn, Task.Outdated]
  | cons b rest => exact Iff.rfl

/-- No call starts to add an agent while another removes it, nor the other way round, and no
agent is seen while a sweep has it on its list, unless it counts as silent for the sweep. -/
def Orderly (s : State F) : Event F → Prop
  | .register agentId _ => ¬ Removes s.tasks agentId
  | .unregister agentId => ¬ Adds s.tasks agentId
  | .touch agentId now => agentId ∈ s.agents → ¬ Outdates s.tasks agentId now
  | .sweep .. => True
  | .go i now => match s.tasks[i]? with
      | some (.registering agentId) => ¬ Outdates s.tasks agentId now
      | some (.sweeping _ _ agentId _) => ¬ Adds s.tasks agentId
      | _ => True

/-! ### The invariant -/

/-- What orderly runs keep of the maps and the calls. -/
structure Inv (agents : AList (fun _ : String => AgentConn F))
    (tunnels : AList (fun _ : String => ℕ)) (tasks : List (Task F)) : Prop where
  apart : ∀ a, Adds tasks a → ¬ Removes tasks a
  added : ∀ a, Adds tasks a → a ∈ tunnels
  removed : ∀ a, Removes tasks a → a ∉ agents
  same : ∀ a, ¬ Adds tasks a → ¬ Removes tasks a → (a ∈ agents ↔ a ∈ tunnels)
  fresh : ∀ a conn, agents.lookup a = some conn → ¬ Outdates tasks a conn.lastSeen

section Invariant

variable {agents : AList (fun _ : String => AgentConn F)} {tunnels : AList (fun _ : String => ℕ)}
  {now maxAge : F}

theorem Inv.congr {tasks' : List (Task F)} (h : Inv agents tunnels tasks)
    (hperm : tasks'.Perm tasks) : Inv agents tunnels tasks' := by
  have hadds : ∀ a, Adds tasks' a ↔ Adds tasks a := fun a => by
    unfold Adds
    simp only [hperm.mem_iff]
  have hremoves : ∀ a, Removes tasks' a ↔ Removes tasks a := fun a => by
    unfold Removes
    simp only [hperm.mem_iff]
  have houtdates : ∀ a now, Outdates tasks' a now ↔ Outdates tasks a now := fun a now => by
    unfold Outdates
    simp only [hperm.mem_iff]
  refine ⟨?_, ?_, ?_, ?_, ?_⟩
  · simpa only [hadds, hremoves] using h.apart
  · simpa only [hadds] using h.added
  · simpa only [hremoves] using h.removed
  · simpa only [hadds, hremoves] using h.same
  · simpa only [houtdates] using h.fresh

theorem Inv.insertTunnel (h : Inv agents tunnels tasks) (ha : ¬ Removes tasks a) (sender : ℕ) :
    Inv agents (tunnels.insert a sender) (.registering a :: tasks) where
  apart b hb hr := by
    simp only [adds_cons, removes_cons, Task.Adding, Task.Removing, false_or] at hb hr
    rcases hb with rfl | hb
    · exact ha hr
    · exact h.apart b hb hr
  added b hb := by
    rw [AList.mem_insert]
    rcases adds_cons.mp hb with hab | hb
    · exact .inl (Eq.symm hab)
    · exact .inr (h.added b hb)
  removed b hb := by
    simp only [removes_cons, Task.Removing, false_or] at hb
    exact h.removed b hb
  same b hb hr := by
    simp only [adds_cons, removes_cons, Task.Adding, Task.Removing, false_or, not_or] at hb hr
    rw [AList.mem_insert, h.same b hb.2 hr]
    exact (or_iff_right (Ne.symm hb.1)).symm
  fresh b conn hb := by
    simp only [outdates_cons, Task.Outdated, false_or]
    exact h.fresh b conn hb

theorem Inv.insertAgent (h : Inv agents tunnels (.registering a :: tasks)) (conn : AgentConn F)
    (ha : ¬ Outdates tasks a conn.lastSeen) :
    Inv (agents.insert a conn) tunnels (.done :: tasks) where
  apart b hb hr := by
    simp only [adds_cons, removes_cons, Task.Adding, Task.Removing, false_or] at hb hr
    exact h.apart b (adds_cons.mpr (.inr hb)) (removes_cons.mpr (.inr hr))
  added b hb := by
    simp only [adds_cons, Task.Adding, false_or] at hb
    exact h.added b (adds_cons.mpr (.inr hb))
  removed b hb := by
    simp only [removes_cons, Task.Removing, false_or] at hb
    have hr : Removes (.registering a :: tasks) b := removes_cons.mpr (.inr hb)
    rw [AList.mem_insert, not_or]
    refine ⟨?_, h.removed b hr⟩
    rintro rfl
    exact h.apart b (adds_cons.mpr (.inl rfl)) hr
  same b hb hr := by
    simp only [adds_cons, removes_cons, Task.Adding, Task.Removing, false_or] at hb hr
    rw [AList.mem_insert]
    by_cases hba : b = a
    · subst hba
      exact iff_of_true (.inl rfl) (h.added b (adds_cons.mpr (.inl rfl)))
    · rw [or_iff_right hba]
      refine h.same b ?_ ?_
      · simpa [Task.Adding] using ⟨Ne.symm hba, hb⟩
      · simpa [Task.Removing] using hr
  fresh b c hb := by
    simp only [outdates_cons, Task.Outdated, false_or]
    by_cases hba : b = a
    · subst hba
      rw [AList.lookup_insert] at hb
      cases hb
      exact ha
    · rw [AList.lookup_insert_ne hba] at hb
      exact fun ho => h.fresh b c hb (outdates_cons.mpr (.inr ho))

theorem Inv.removeAgent {old : List (Task F)} (h : Inv agents tunnels old)
    (new : List (Task F)) (ha : ¬ Adds old a) (hadds : ∀ b, Adds new b ↔ Adds old b)
    (hremoves : ∀ b, Removes new b ↔ b = a ∨ Removes old b)
    (houtdates : ∀ b seen, Outdates new b seen → Outdates old b seen) :
    Inv (agents.erase a) tunnels new where
  apart b hb hr := by
    rw [hadds] at hb
    rcases (hremoves b).mp hr with rfl | hr
    · exact ha hb
    · exact h.apart b hb hr
  added b hb := h.added b ((hadds b).mp hb)
  removed b hb := by
    rw [AList.mem_erase, not_and]
    intro hne
    rcases (hremoves b).mp hb with rfl | hb
    · exact absurd rfl hne
    · exact h.removed b hb
  same b hb hr := by
    rw [hremoves, not_or] at hr
    rw [hadds] at hb
    rw [AList.mem_erase, h.same b hb hr.2, and_iff_right hr.1]
  fresh b conn hb ho := by
    by_cases hba : b = a
    · subst hba
      rw [AList.lookup_erase] at hb
      cases hb
    · rw [AList.lookup_erase_ne hba] at hb
      exact h.fresh b conn hb (houtdates b _ ho)

theorem Inv.removeTunnel {old : List (Task F)} (h : Inv agents tunnels old)
    (new : List (Task F)) (ha : Removes old a) (hadds : ∀ b, Adds new b ↔ Adds old b)
    (hremoves : ∀ b, Removes new b ∨ b = a ↔ Removes old b)
    (houtdates : ∀ b seen, Outdates new b seen → Outdates old b seen) :
    Inv agents (tunnels.erase a) new where
  apart b hb hr := h.apart b ((hadds b).mp hb) ((hremoves b).mp (.inl hr))
  added b hb := by
    rw [hadds] at hb
    rw [AList.mem_erase]
    refine ⟨?_, h.added b hb⟩
    rintro rfl
    exact h.apart b hb ha
  removed b hb := h.removed b ((hremoves b).mp (.inl hb))
  same b hb hr := by
    rw [hadds] at hb
    rw [AList.mem_erase]
    by_cases hba : b = a
    · subst hba
      exact iff_of_false (h.removed b ha) fun hm => hm.1 rfl
    · rw [and_iff_right hba]
      refine h.same b hb fun hold => ?_
      rcases (hremoves b).mpr hold with hnew | heq
      · exact hr hnew
      · exact hba heq
  fresh b conn hb ho := h.fresh b conn hb (houtdates b _ ho)

theorem Inv.touch (h : Inv agents tunnels tasks) {conn : AgentConn F}
    (hconn : agents.lookup a = some conn) (ha : ¬ Outdates tasks a now) :
    Inv (agents.insert a { conn with lastSeen := now }) tunnels tasks := by
  have hmem : a ∈ agents := AList.lookup_isSome.mp (by rw [hconn]; rfl)
  have hkeys : ∀ b, b ∈ agents.insert a { conn with lastSeen := now } ↔ b ∈ agents := fun b => by
    rw [AList.mem_insert]
    refine or_iff_right_of_imp ?_
    rintro rfl
    exact hmem
  refine ⟨h.apart, h.added, ?_, ?_, ?_⟩
  · simpa only [hkeys] using h.removed
  · simpa only [hkeys] using h.same
  · intro b c hb
    by_cases hba : b = a
    · subst hba
      rw [AList.lookup_insert] at hb
      cases hb
      exact ha
    · rw [AList.lookup_insert_ne hba] at hb
      exact h.fresh b c hb

theorem Inv.sweep [DecidableLT F] (h : Inv agents tunnels tasks) (stale : List String)
    (hstale : ∀ a ∈ stale, ∀ conn, agents.lookup a = some conn →
      conn.silent now maxAge = true) :
    Inv agents tunnels (Task.sweepOn now maxAge stale :: tasks) := by
  have hadds : ∀ a, Adds (Task.sweepOn now maxAge stale :: tasks) a ↔ Adds tasks a := fun a => by
    rw [adds_cons, or_iff_right (sweepOn_adding now maxAge stale)]
  have hremoves : ∀ a, Removes (Task.sweepOn now maxAge stale :: tasks) a ↔ Removes tasks a :=
    fun a => by rw [removes_cons, or_iff_right (sweepOn_removing now maxAge stale)]
  refine ⟨?_, ?_, ?_, ?_, ?_⟩
  · simpa only [hadds, hremoves] using h.apart
  · simpa only [hadds] using h.added
  · simpa only [hremoves] using h.removed
  · simpa only [hadds, hremoves] using h.same
  · intro b conn hb ho
    rcases outdates_cons.mp ho with ho | ho
    · obtain ⟨hmem, hnot⟩ := sweepOn_outdated.mp ho
      exact hnot (of_decide_eq_true (hstale b hmem conn hb))
    · exact h.fresh b conn hb ho

end Invariant

variable {s : State F}

theorem Inv.go (h : Inv s.agents s.tunnels s.tasks) {i : ℕ} {t : Task F} (ht : s.tasks[i]? = some t)
    (now : F) (ho : Orderly s (.go i now)) :
    Inv (s.go i now t).agents (s.go i now t).tunnels (s.go i now t).tasks := by
  obtain ⟨hold, hset⟩ := perm_of_getElem? ht
  have h' := h.congr hold.symm
  have hmem : t ∈ s.tasks := List.mem_of_getElem? ht
  simp only [Orderly, ht] at ho
  cases t with
  | registering a =>
      refine (Inv.insertAgent h' ⟨a, now, now⟩ fun hout => ho ?_).congr (hset _)
      obtain ⟨t, ht, hout⟩ := hout
      exact ⟨t, List.mem_of_mem_eraseIdx ht, hout⟩
  | unregistering a =>
      refine (h'.removeTunnel (.done :: s.tasks.eraseIdx i) ⟨_, List.mem_cons_self, rfl⟩
        ?_ ?_ ?_).congr (hset _)
      · intro b
        simp [Task.Adding]
      · intro b
        simp [Task.Removing, or_comm, eq_comm]
      · intro b seen hb
        simpa [Task.Outdated] using hb
  | sweeping n maxAge a rest =>
      have ha : ¬ Adds (.sweeping n maxAge a rest :: s.tasks.eraseIdx i) a := by
        rintro ⟨t, ht, hadd⟩
        exact ho ⟨t, hold.mem_iff.mpr ht, hadd⟩
      refine (h'.removeAgent (.clearing n maxAge a rest :: s.tasks.eraseIdx i) ha
        ?_ ?_ ?_).congr (hset _)
      · intro b
        simp [Task.Adding]
      · intro b
        simp [Task.Removing, eq_comm]
      · intro b seen hb
        simp only [outdates_cons, Task.Outdated] at hb ⊢
        exact hb.imp_left fun hb => ⟨List.mem_cons_of_mem a hb.1, hb.2⟩
  | clearing n maxAge a rest =>
      refine (h'.removeTunnel (Task.sweepOn n maxAge rest :: s.tasks.eraseIdx i)
        ⟨_, List.mem_cons_self, rfl⟩ ?_ ?_ ?_).congr (hset _)
      · intro b
        rw [adds_cons, adds_cons, or_iff_right (sweepOn_adding n maxAge rest),
          or_iff_right (show ¬ (Task.clearing n maxAge a rest).Adding b from not_false)]
      · intro b
        rw [removes_cons, removes_cons, or_iff_right (sweepOn_removing n maxAge rest), or_comm]
        exact or_congr_left eq_comm
      · intro b seen hb
        rw [outdates_cons, sweepOn_outdated] at hb
        exact outdates_cons.mpr hb
  | done => exact h

variable [DecidableLT F]

/-- **One lock section of an orderly run.** -/
theorem Inv.step (h : Inv s.agents s.tunnels s.tasks) {e : Event F} (ho : Orderly s e) :
    Inv (step s e).agents (step s e).tunnels (step s e).tasks := by
  cases e with
  | register a sender =>
      exact (h.insertTunnel ho sender).congr (List.perm_append_singleton _ _)
  | unregister a =>
      refine (h.removeAgent (.unregistering a :: s.tasks) ho ?_ ?_ ?_).congr
        (List.perm_append_singleton _ _)
      · intro b
        simp [Task.Adding]
      · intro b
        simp [Task.Removing, eq_comm]
      · intro b seen hb
        simpa [Task.Outdated] using hb
  | touch a now =>
      simp only [Registry.step, State.touch]
      cases hconn : s.agents.lookup a with
      | none => exact h
      | some conn => exact h.touch hconn (ho (AList.lookup_isSome.mp (by rw [hconn]; rfl)))
  | sweep now maxAge stale =>
      simp only [Registry.step]
      split_ifs with hperm
      · refine (h.sweep stale ?_).congr
          (List.perm_append_singleton _ _)
        intro a ha conn hconn
        obtain ⟨e, he, rfl⟩ := List.mem_map.mp (hperm.mem_iff.mp ha)
        obtain ⟨hmem, hsilent⟩ := List.mem_filter.mp he
        have hlook : s.agents.lookup e.1 = some e.2 := AList.mem_lookup_iff.mpr hmem
        rw [hconn] at hlook
        cases hlook
        exact hsilent
      · exact h
  | go i now =>
      simp only [Registry.step]
      cases ht : s.tasks[i]? with
      | none => exact h
      | some t => exact h.go ht now ho

/-- What the invariant is good for. -/
theorem good_of_inv (h : Inv s.agents s.tunnels s.tasks) {e : Event F} (ho : Orderly s e) :
    Good s e := by
  refine ⟨fun hquiet a => ?_, fun i now n maxAge a rest conn he ht hconn => ?_⟩
  · refine (h.step ho).same a ?_ ?_
    · rintro ⟨t, ht, hadd⟩
      rw [hquiet t ht] at hadd
      exact hadd
    · rintro ⟨t, ht, hrem⟩
      rw [hquiet t ht] at hrem
      exact hrem
  · by_contra hsilent
    refine h.fresh a conn hconn ⟨_, List.mem_of_getElem? ht, List.mem_cons_self, ?_⟩
    simpa [AgentConn.silent] using hsilent

end Conditions

/-! ### How the calls in progress can finish -/

section Finish

/-- The number of lock sections that a call still has to go through. -/
def Task.work {F : Type} : Task F → ℕ
  | .registering _ => 1
  | .unregistering _ => 1
  | .sweeping _ _ _ rest => 2 * rest.length + 2
  | .clearing _ _ _ rest => 2 * rest.length + 1
  | .done => 0

theorem sum_work_set {F : Type} {tasks : List (Task F)} {i : ℕ} {t t' : Task F}
    (ht : tasks[i]? = some t) (hlt : t'.work < t.work) :
    ((tasks.set i t').map Task.work).sum < (tasks.map Task.work).sum := by
  obtain ⟨hold, hset⟩ := perm_of_getElem? ht
  rw [(hold.map _).sum_eq, ((hset t').map _).sum_eq, List.map_cons, List.map_cons, List.sum_cons,
    List.sum_cons]
  omega

variable {F : Type} [Sub F] [LT F] [DecidableLT F] {s : State F}

/-- Calls that are in progress go on. -/
def GoesOn (es : List (Event F)) : Prop := ∀ e ∈ es, ∃ i now, e = .go i now

/-- A call that goes on comes closer to its end, and inserts no tunnel. -/
theorem go_spec {i : ℕ} {t : Task F} (ht : s.tasks[i]? = some t) (hne : t ≠ .done) (now : F) :
    ∃ t', (step s (.go i now)).tasks = s.tasks.set i t' ∧ t'.work < t.work ∧
      ∀ a, a ∉ s.tunnels → a ∉ (step s (.go i now)).tunnels := by
  simp only [step, ht]
  cases t with
  | registering a => exact ⟨.done, rfl, Nat.one_pos, fun _ h => h⟩
  | unregistering a =>
      exact ⟨.done, rfl, Nat.one_pos, fun b hb hmem => hb (AList.mem_erase.mp hmem).2⟩
  | sweeping n maxAge a rest =>
      exact ⟨.clearing n maxAge a rest, rfl, Nat.lt_succ_self _, fun _ h => h⟩
  | clearing n maxAge a rest =>
      refine ⟨Task.sweepOn n maxAge rest, rfl, ?_,
        fun b hb hmem => hb (AList.mem_erase.mp hmem).2⟩
      cases rest with
      | nil => exact Nat.one_pos
      | cons b rest =>
          simp only [Task.sweepOn, Task.work, List.length_cons]
          omega
  | done => exact absurd rfl hne

/-- A record is inserted where there is no tunnel, and nothing is in progress any more. -/
theorem not_good_of_last {a : String} {i : ℕ} (hlast : s.tasks[i]? = some (.registering a))
    (hdone : ∀ j, j ≠ i → ∀ t, s.tasks[j]? = some t → t = .done) (ha : a ∉ s.tunnels) (now : F) :
    ¬ Good s (.go i now) := by
  rintro ⟨hsame, -⟩
  simp only [step, hlast, State.go] at hsame
  refine ha ((hsame (fun t ht => ?_) a).mp ((AList.mem_insert _).mpr (.inl rfl)))
  obtain ⟨k, hk⟩ := List.mem_iff_getElem?.mp ht
  by_cases hki : k = i
  · subst hki
    rw [List.getElem?_set_self (List.getElem?_eq_some_iff.mp hlast).1] at hk
    exact (Option.some.inj hk).symm
  · rw [List.getElem?_set_ne (Ne.symm hki)] at hk
    exact hdone k hki t hk

variable [Inhabited F]

theorem exists_others_done (i : ℕ) (s : State F) : ∃ es, GoesOn es ∧
    (final step s es).tasks[i]? = s.tasks[i]? ∧
    (∀ j, j ≠ i → ∀ t, (final step s es).tasks[j]? = some t → t = .done) ∧
    ∀ a, a ∉ s.tunnels → a ∉ (final step s es).tunnels := by
  induction hn : (s.tasks.map Task.work).sum using Nat.strong_induction_on generalizing s with
  | h n ih =>
      by_cases hall : ∀ j, j ≠ i → ∀ t, s.tasks[j]? = some t → t = .done
      · exact ⟨[], List.forall_mem_nil _, rfl, hall, fun _ h => h⟩
      · push Not at hall
        obtain ⟨j, hji, t, ht, hne⟩ := hall
        obtain ⟨t', htasks, hwork, htunnels⟩ := go_spec ht hne default
        have hless := sum_work_set ht hwork
        rw [← htasks, hn] at hless
        obtain ⟨es, hgo, hi, hrest, hkeep⟩ := ih _ hless (step s (.go j default)) rfl
        refine ⟨.go j default :: es, List.forall_mem_cons.mpr ⟨⟨j, default, rfl⟩, hgo⟩, ?_, hrest,
          fun a ha => hkeep a (htunnels a ha)⟩
        rw [Runs.final_cons, hi, htasks, List.getElem?_set_ne hji]

/-- Where an agent is added and removed at the same time, it can end with a record and without a
tunnel. -/
theorem exists_mismatch {a : String} (hadds : Adds s.tasks a) (hremoves : Removes s.tasks a) :
    ∃ es, GoesOn es ∧ ¬ Along step Good s es := by
  obtain ⟨t, htmem, hadd⟩ := hadds
  obtain ⟨t', htmem', hrem⟩ := hremoves
  obtain ⟨i, hi⟩ := List.mem_iff_getElem?.mp htmem
  obtain ⟨j, hj⟩ := List.mem_iff_getElem?.mp htmem'
  obtain rfl : t = .registering a := by
    cases t with
    | registering b => rw [show b = a from hadd]
    | _ => exact hadd.elim
  have hij : j ≠ i := by
    rintro rfl
    rw [hi] at hj
    cases hj
    exact hrem
  -- the tunnel is removed first
  have hgone : a ∉ (step s (.go j default)).tunnels ∧
      (step s (.go j default)).tasks[i]? = some (.registering a) := by
    simp only [step, hj]
    cases t' with
    | unregistering b =>
        obtain rfl : b = a := hrem
        exact ⟨fun h => (AList.mem_erase.mp h).1 rfl, by
          rw [State.go, List.getElem?_set_ne hij, hi]⟩
    | clearing n maxAge b rest =>
        obtain rfl : b = a := hrem
        exact ⟨fun h => (AList.mem_erase.mp h).1 rfl, by
          rw [State.go, List.getElem?_set_ne hij, hi]⟩
    | _ => exact hrem.elim
  obtain ⟨es, hgo, hlast, hdone, hkeep⟩ := exists_others_done i (step s (.go j default))
  rw [hgone.2] at hlast
  refine ⟨.go j default :: (es ++ [.go i default]), ?_, fun hall => ?_⟩
  · refine List.forall_mem_cons.mpr ⟨⟨j, default, rfl⟩, List.forall_mem_append.mpr ⟨hgo, ?_⟩⟩
    exact List.forall_mem_singleton.mpr ⟨i, default, rfl⟩
  · -- and the record is inserted last
    obtain ⟨hgood, -⟩ := ((Runs.along_append ..).mp hall.2).2
    exact not_good_of_last hlast hdone (hkeep a hgone.1) default hgood

/-- An agent that was seen while a sweep has it on its list can be removed all the same. -/
theorem exists_removal {a : String} (conn : AgentConn F) (hconn : s.agents.lookup a = some conn)
    (hout : Outdates s.tasks a conn.lastSeen) : ∃ es, GoesOn es ∧ ¬ Along step Good s es := by
  have hsweep : ∀ (rest : List String) (s : State F) (k : ℕ) (n maxAge : F),
      s.agents.lookup a = some conn → s.tasks[k]? = some (Task.sweepOn n maxAge rest) →
      a ∈ rest → ¬ n - conn.lastSeen > maxAge → ∃ es, GoesOn es ∧ ¬ Along step Good s es := by
    intro rest
    induction rest with
    | nil => exact fun _ _ _ _ _ _ hmem => absurd hmem List.not_mem_nil
    | cons b rest ih =>
        intro s k n maxAge hconn hk hmem hnot
        by_cases hba : a = b
        · subst hba
          refine ⟨[.go k default], List.forall_mem_singleton.mpr ⟨k, default, rfl⟩, fun hall => ?_⟩
          have hsilent := hall.1.2 k default n maxAge a rest conn rfl hk hconn
          exact hnot (of_decide_eq_true hsilent)
        · -- the record of `b` is removed, and its tunnel
          have hlt := (List.getElem?_eq_some_iff.mp hk).1
          have hfirst : step s (.go k default) = { s with
              agents := s.agents.erase b
              tasks := s.tasks.set k (.clearing n maxAge b rest) } := by
            simp only [step, hk, Task.sweepOn, State.go]
          have hsecond : step (step s (.go k default)) (.go k default) = {
              agents := s.agents.erase b
              tunnels := s.tunnels.erase b
              tasks := (s.tasks.set k (.clearing n maxAge b rest)).set k
                (Task.sweepOn n maxAge rest) } := by
            rw [hfirst]
            simp only [step, List.getElem?_set_self hlt, State.go]
          obtain ⟨es, hgo, hbad⟩ := ih (step (step s (.go k default)) (.go k default)) k n maxAge
            (by rw [hsecond]; exact (AList.lookup_erase_ne hba).trans hconn)
            (by rw [hsecond]; exact List.getElem?_set_self (by simpa using hlt))
            ((List.mem_cons.mp hmem).resolve_left hba) hnot
          refine ⟨.go k default :: .go k default :: es, ?_, fun hall => hbad hall.2.2⟩
          exact List.forall_mem_cons.mpr ⟨⟨k, default, rfl⟩,
            List.forall_mem_cons.mpr ⟨⟨k, default, rfl⟩, hgo⟩⟩
  obtain ⟨t, htmem, ho⟩ := hout
  obtain ⟨k, hk⟩ := List.mem_iff_getElem?.mp htmem
  cases t with
  | sweeping n maxAge b rest => exact hsweep (b :: rest) s k n maxAge hconn hk ho.1 ho.2
  | clearing n maxAge b rest =>
      have hlt := (List.getElem?_eq_some_iff.mp hk).1
      have hstep : step s (.go k default) = { s with
          tunnels := s.tunnels.erase b
          tasks := s.tasks.set k (Task.sweepOn n maxAge rest) } := by
        simp only [step, hk, State.go]
      obtain ⟨es, hgo, hbad⟩ := hsweep rest (step s (.go k default)) k n maxAge
        (by rw [hstep]; exact hconn) (by rw [hstep]; exact List.getElem?_set_self hlt) ho.1 ho.2
      exact ⟨.go k default :: es, List.forall_mem_cons.mpr ⟨⟨k, default, rfl⟩, hgo⟩,
        fun hall => hbad hall.2⟩
  | _ => exact ho.elim

end Finish

/-! ### Runs -/

section Runs

variable {F : Type} [Sub F] [LT F]

theorem inv_init : Inv (init F).agents (init F).tunnels (init F).tasks where
  apart _ h := by
    obtain ⟨_, ht, -⟩ := h
    cases ht
  added _ h := by
    obtain ⟨_, ht, -⟩ := h
    cases ht
  removed _ h := by
    obtain ⟨_, ht, -⟩ := h
    cases ht
  same _ _ _ := Iff.rfl
  fresh _ _ h := by cases h

variable [DecidableLT F]

theorem exists_bad [Inhabited F] {s : State F} {e : Event F} (h : ¬ Orderly s e) :
    ∃ es, GoesOn es ∧ ¬ Along step Good (step s e) es := by
  cases e with
  | register a sender =>
      refine exists_mismatch (a := a)
        ⟨_, List.mem_append_right _ (List.mem_singleton_self _), rfl⟩ ?_
      obtain ⟨t, ht, hrem⟩ := not_not.mp h
      exact ⟨t, List.mem_append_left _ ht, hrem⟩
  | unregister a =>
      refine exists_mismatch (a := a) ?_
        ⟨_, List.mem_append_right _ (List.mem_singleton_self _), rfl⟩
      obtain ⟨t, ht, hadd⟩ := not_not.mp h
      exact ⟨t, List.mem_append_left _ ht, hadd⟩
  | touch a now =>
      obtain ⟨hmem, hout⟩ := Classical.not_imp.mp h
      obtain ⟨conn, hconn⟩ := Option.isSome_iff_exists.mp (AList.lookup_isSome.mpr hmem)
      refine exists_removal (a := a) { conn with lastSeen := now } ?_ ?_
      · simp only [step, State.touch, hconn]
        exact AList.lookup_insert _
      · simp only [step, State.touch, hconn]
        exact not_not.mp hout
  | sweep now maxAge stale => exact absurd trivial h
  | go i now =>
      cases hi : s.tasks[i]? with
      | none =>
          simp only [Orderly, hi] at h
          exact absurd trivial h
      | some task =>
          obtain ⟨hold, hset⟩ := perm_of_getElem? hi
          -- the other calls stay
          have hother : ∀ t t', t ∈ s.tasks → t ≠ task → t ∈ s.tasks.set i t' :=
            fun t t' ht hne => (hset t').mem_iff.mpr (List.mem_cons_of_mem _
              ((List.mem_cons.mp (hold.mem_iff.mp ht)).resolve_left hne))
          simp only [Orderly, hi] at h
          cases task with
          | registering a =>
              obtain ⟨t, ht, hout⟩ := not_not.mp h
              refine exists_removal (a := a) ⟨a, now, now⟩ ?_ ?_
              · simp only [step, hi, State.go]
                exact AList.lookup_insert _
              · simp only [step, hi, State.go]
                refine ⟨t, hother t _ ht ?_, hout⟩
                rintro rfl
                exact hout
          | sweeping n maxAge a rest =>
              obtain ⟨t, ht, hadd⟩ := not_not.mp h
              refine exists_mismatch (a := a) ?_ ?_
              · simp only [step, hi, State.go]
                refine ⟨t, hother t _ ht ?_, hadd⟩
                rintro rfl
                exact hadd
              · simp only [step, hi, State.go]
                exact ⟨_, (hset _).mem_iff.mpr List.mem_cons_self, rfl⟩
          | _ => exact absurd trivial h

/-- **In orderly runs the maps have the same keys whenever no call is in progress, and a sweep
removes only records of agents that are still silent.**  A run that is not orderly has a prefix
that its calls can finish, without another call, so that this fails. -/
theorem registry_in_step [Inhabited F] (es : List (Event F)) :
    (Along step Orderly (init F) es → Along step Good (init F) es) ∧
      (¬ Along step Orderly (init F) es → ∃ pre es', pre <+: es ∧ GoesOn es' ∧
        ¬ Along step Good (init F) (pre ++ es')) := by
  constructor
  · exact Along.of_invariant (I := fun s => Inv s.agents s.tunnels s.tasks)
      (fun s e h ho => ⟨good_of_inv h ho, h.step ho⟩) inv_init
  · intro h
    obtain ⟨pre, e, post, rfl, hdis⟩ := Runs.exists_of_not_along h
    obtain ⟨es', hgo, hbad⟩ := exists_bad hdis
    refine ⟨pre ++ [e], es', ⟨post, by simp⟩, hgo, fun hall => hbad ?_⟩
    rw [Runs.along_append, Runs.final_append] at hall
    exact hall.2

/-- An agent reconnects while its record is removed: the record comes back, the tunnel goes. -/
def reconnecting : List (Event ℤ) :=
  [.register "a1" 0, .go 0 0, .unregister "a1", .register "a1" 1, .go 2 5, .go 1 5]

/-- An agent answers after a sweep has found it silent. -/
def answering : List (Event ℤ) :=
  [.register "a1" 0, .go 0 0, .sweep 100 90 ["a1"], .touch "a1" 100]

theorem phantom_and_live :
    ((final step (init ℤ) reconnecting).tasks = [.done, .done, .done] ∧
        "a1" ∈ (final step (init ℤ) reconnecting).agents ∧
        "a1" ∉ (final step (init ℤ) reconnecting).tunnels) ∧
      ((final step (init ℤ) answering).tasks = [.done, .sweeping 100 90 "a1" []] ∧
        (final step (init ℤ) answering).agents.lookup "a1" = some ⟨"a1", 0, 100⟩) ∧
      ¬ Good (final step (init ℤ) answering) (.go 1 100) := by
  refine ⟨by decide, by decide, fun h => ?_⟩
  have hsilent := h.2 1 100 100 90 "a1" [] ⟨"a1", 0, 100⟩ rfl (by decide) (by decide)
  exact absurd hsilent (by decide)

end Runs

end FirewallLLM.Registry
