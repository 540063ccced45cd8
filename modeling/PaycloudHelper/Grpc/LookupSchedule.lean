import Mathlib
import PaycloudHelper.Library.Runs
import PaycloudHelper.Grpc.DiscoveryConvergence

/-!
# When the refresher looks the host up

As long as nothing is known, a lookup follows the one before after 1 s, 2 s, 4 s and so on,
never after more than the refresh interval. An address that is known once keeps some address
known for good, so from then on every lookup comes one interval after the one before.
-/

namespace PaycloudHelper.Discovery

open ChangeLogs Runs

section
variable {A ε : Type}

/-- The delay before a lookup that comes after as many that found nothing. -/
def retrySchedule (refresh : ℕ) : ℕ → ℕ
  | 0 => 0
  | n + 1 => min (firstRetry * 2 ^ n) refresh

theorem sum_retrySchedule {refresh n : ℕ} (h : firstRetry * 2 ^ n ≤ refresh) :
    ∑ k ∈ Finset.range (n + 2), retrySchedule refresh k = firstRetry * (2 ^ (n + 1) - 1) := by
  induction n with
  | zero => simpa [Finset.sum_range_succ, retrySchedule] using h
  | succ n ih =>
    have hhalf : firstRetry * 2 ^ n ≤ refresh :=
      (Nat.mul_le_mul_left _ (Nat.pow_le_pow_right two_pos n.le_succ)).trans h
    rw [Finset.sum_range_succ, ih hhalf, retrySchedule, min_eq_left h, ← Nat.mul_add]
    congr 1
    have hpos : 0 < 2 ^ (n + 1) := by positivity
    rw [pow_succ 2 (n + 1)]
    omega

def Event.turns : Event A ε → ℕ
  | .dropped => 0
  | .lookedUp _ _ => 1

variable [LinearOrder A]

/-- The lookups of a run, and the time slept before them. -/
def spent (l : Loop A ε) (es : List (Event A ε)) : ℕ × ℕ :=
  total step (fun l e => (e.turns, e.turns * l.delay)) l es

def lookups (l : Loop A ε) (es : List (Event A ε)) : ℕ := (spent l es).1

def slept (l : Loop A ε) (es : List (Event A ε)) : ℕ := (spent l es).2

/-! ## An address stays known -/

variable {r : Refresher A ε} {build : A → Except Error ε}

theorem known_subset_insertAdded (build : A → Except Error ε) (r : Refresher A ε)
    (added : List A) : r.known ⊆ (r.insertAdded build added).2.known := by
  induction added generalizing r with
  | nil => exact subset_rfl
  | cons a added ih =>
    unfold Refresher.insertAdded
    cases build a with
    | error err => exact ih r
    | ok endpoint =>
      dsimp only
      obtain ⟨tx, ⟨hq, -⟩ | ⟨sent, hne, hq, -⟩⟩ := queue_cases r
        (inserts (addrKeys a r.pool) endpoint) fun r => { r with known := insert a r.known }
      · have hrest := ih { r with tx := tx, known := insert a r.known }
        rw [hq]
        exact (Finset.subset_insert a r.known).trans hrest
      · rw [hq]
        cases sent with
        | ok => exact absurd rfl hne
        | full | closed => exact subset_rfl

theorem mem_known_removeGone {gone : List A} {b : A} (hb : b ∈ r.known) (hstays : b ∉ gone) :
    b ∈ (r.removeGone gone).2.known := by
  induction gone generalizing r with
  | nil => exact hb
  | cons a gone ih =>
    obtain ⟨hba, hstays⟩ := not_or.mp (List.mem_cons.not.mp hstays)
    unfold Refresher.removeGone
    obtain ⟨tx, ⟨hq, -⟩ | ⟨sent, hne, hq, -⟩⟩ := queue_cases r
      (removes (addrKeys a r.pool)) fun r => { r with known := r.known.erase a }
    · rw [hq]
      exact ih (Finset.mem_erase.mpr ⟨hba, hb⟩) hstays
    · rw [hq]
      cases sent with
      | ok => exact absurd rfl hne
      | full | closed => exact hb

theorem known_removals (gone : List A) (h : r.known ≠ ∅) : (r.removals gone).2.known ≠ ∅ := by
  unfold Refresher.removals
  split_ifs with hlen
  · obtain ⟨b, hb, hstays⟩ : ∃ b ∈ r.known, b ∉ gone.toFinset :=
      Finset.exists_mem_notMem_of_card_lt_card ((List.toFinset_card_le gone).trans_lt hlen)
    have hkept := mem_known_removeGone hb fun h => hstays (List.mem_toFinset.mpr h)
    exact Finset.ne_empty_of_mem hkept
  · exact h

theorem known_unseed : r.unseed.2.known = r.known := by
  unfold Refresher.unseed Refresher.removeSeed
  split_ifs
  · obtain ⟨tx, ⟨hq, -⟩ | ⟨sent, -, hq, -⟩⟩ := queue_cases r
      (removes (seedKeys r.seedSlots)) fun r => { r with seedSlots := 0 }
    · rw [hq]
    · rw [hq]
  · rfl

omit [LinearOrder A] in
theorem known_andThen {x : Sent × Refresher A ε} {f : Refresher A ε → Sent × Refresher A ε}
    (hx : x.2.known ≠ ∅) (hf : ∀ r : Refresher A ε, r.known ≠ ∅ → (f r).2.known ≠ ∅) :
    (andThen x f).2.known ≠ ∅ := by
  obtain ⟨sent, r⟩ := x
  cases sent with
  | ok => exact hf r hx
  | full | closed => exact hx

theorem known_apply (found : Finset A) (h : r.known ≠ ∅) : (r.apply found build).2.known ≠ ∅ := by
  have hins : (r.insertAdded build (diffAddrs r.known found).1).2.known ≠ ∅ := by
    intro hempty
    have hsub := known_subset_insertAdded build r (diffAddrs r.known found).1
    rw [hempty] at hsub
    exact h (Finset.subset_empty.mp hsub)
  rw [apply_eq]
  apply known_andThen
  · exact known_andThen hins fun r' => known_removals (diffAddrs r.known found).2
  · intro r' hr'
    rwa [known_unseed]

/-! ## The schedule -/

variable {l l' : Loop A ε} {e : Event A ε}

theorem step_turn (h : step l e = some l') :
    (e.turns = 0 ∧ l'.refresh = l.refresh ∧ l'.first = l.first ∧ l'.retry = l.retry ∧
      l'.refresher.known = l.refresher.known) ∨
    (e.turns = 1 ∧ l'.refresh = l.slept.refresh ∧ l'.first = l.slept.first ∧
      l'.retry = l.slept.retry ∧ (l.refresher.known ≠ ∅ → l'.refresher.known ≠ ∅)) := by
  cases e with
  | dropped =>
    simp only [step] at h
    split_ifs at h
    obtain rfl := Option.some.inj h
    exact Or.inl ⟨rfl, rfl, rfl, rfl, rfl⟩
  | lookedUp answer build =>
    simp only [step] at h
    split_ifs at h
    right
    cases answer with
    | found addresses =>
      obtain rfl := Option.some.inj h
      refine ⟨rfl, rfl, rfl, rfl, fun hknown => ?_⟩
      dsimp only
      rw [slept_refresher]
      exact known_apply addresses hknown
    | failed | timedOut =>
      obtain rfl := Option.some.inj h
      refine ⟨rfl, rfl, rfl, rfl, fun hknown => ?_⟩
      rwa [slept_refresher]

structure OnSchedule (refresh : ℕ) (m : ℕ × ℕ) (l : Loop A ε) : Prop where
  interval : l.refresh = refresh
  first : l.refresher.known = ∅ → l.first = decide (m.1 = 0)
  retry : l.refresher.known = ∅ → l.retry = min (firstRetry * 2 ^ (m.1 - 1)) refresh
  slept : l.refresher.known = ∅ → m.2 = ∑ k ∈ Finset.range m.1, retrySchedule refresh k
  known : l.refresher.known ≠ ∅ → l.first = false

variable {refresh : ℕ} {m : ℕ × ℕ}

theorem OnSchedule.delay_unknown (h : OnSchedule refresh m l) (hknown : l.refresher.known = ∅) :
    l.delay = retrySchedule refresh m.1 := by
  have hfirst := h.first hknown
  have hretry := h.retry hknown
  unfold Loop.delay
  cases hn : m.1 with
  | zero => simp [hfirst, hn, retrySchedule]
  | succ n => simp [hfirst, hretry, hn, hknown, retrySchedule]

theorem OnSchedule.delay_known (h : OnSchedule refresh m l) (hknown : l.refresher.known ≠ ∅) :
    l.delay = refresh := by
  simp [Loop.delay, h.known hknown, hknown, h.interval]

theorem slept_refresh (l : Loop A ε) : l.slept.refresh = l.refresh := by
  unfold Loop.slept
  split_ifs <;> rfl

theorem slept_first (l : Loop A ε) : l.slept.first = false := by
  unfold Loop.slept
  split_ifs with hfirst
  · rfl
  · exact Bool.eq_false_of_not_eq_true hfirst
  · exact Bool.eq_false_of_not_eq_true hfirst

theorem OnSchedule.slept_retry (h : OnSchedule refresh m l) (hknown : l.refresher.known = ∅) :
    l.slept.retry = min (firstRetry * 2 ^ m.1) refresh := by
  have hfirst := h.first hknown
  have hretry := h.retry hknown
  unfold Loop.slept
  cases hn : m.1 with
  | zero => simpa [hfirst, hn] using hretry
  | succ n =>
    simp only [hfirst, hn, hretry, hknown, h.interval, Nat.add_sub_cancel, pow_succ,
      ← Nat.mul_assoc, if_true, Nat.add_one_ne_zero, decide_false, Bool.false_eq_true, if_false]
    omega

theorem OnSchedule.step (h : OnSchedule refresh m l) (hstep : Discovery.step l e = some l') :
    OnSchedule refresh (m + (e.turns, e.turns * l.delay)) l' := by
  rcases step_turn hstep with ⟨hturn, hrefresh, hfirst, hretry, hknown⟩ |
    ⟨hturn, hrefresh, hfirst, hretry, hknown⟩
  · rw [hturn, Nat.zero_mul, ← Prod.zero_eq_mk, add_zero]
    constructor <;> simp only [hrefresh, hfirst, hretry, hknown]
    · exact h.interval
    · exact h.first
    · exact h.retry
    · exact h.slept
    · exact h.known
  · rw [hturn, Nat.one_mul]
    have hstill : l'.refresher.known = ∅ → l.refresher.known = ∅ := fun hl' => by
      by_contra hl
      exact hknown hl hl'
    constructor
    · rw [hrefresh, slept_refresh, h.interval]
    · intro _
      simp [hfirst, slept_first]
    · intro hl'
      simp [hretry, h.slept_retry (hstill hl')]
    · intro hl'
      have hl := hstill hl'
      simp only [Prod.snd_add, Prod.fst_add]
      rw [Finset.sum_range_succ, ← h.slept hl, h.delay_unknown hl]
    · intro _
      rw [hfirst, slept_first]

/-- Once an address is known, every lookup is one interval after the one before. -/
structure Paced (refresh : ℕ) (m : ℕ × ℕ) (l : Loop A ε) : Prop where
  known : l.refresher.known ≠ ∅
  interval : l.refresh = refresh
  first : l.first = false
  slept : m.2 = m.1 * refresh

theorem Paced.step (h : Paced refresh m l) (hstep : Discovery.step l e = some l') :
    Paced refresh (m + (e.turns, e.turns * l.delay)) l' := by
  have hdelay : l.delay = refresh := by simp [Loop.delay, h.first, h.known, h.interval]
  have hslept : (m + (e.turns, e.turns * l.delay)).2 =
      (m + (e.turns, e.turns * l.delay)).1 * refresh := by
    simp only [Prod.snd_add, Prod.fst_add]
    rw [h.slept, hdelay, Nat.add_mul]
  rcases step_turn hstep with ⟨-, hrefresh, hfirst, -, hknown⟩ | ⟨-, hrefresh, hfirst, -, hknown⟩
  · exact ⟨hknown ▸ h.known, hrefresh.trans h.interval, hfirst.trans h.first, hslept⟩
  · refine ⟨hknown h.known, ?_, ?_, hslept⟩
    · rw [hrefresh, slept_refresh, h.interval]
    · rw [hfirst, slept_first]

/-! ## From a start-up on -/

theorem discoveryTarget_refresh {config : DialConfig} {env : String → Except String String}
    {targetEnv : String} {target : String × ℕ × ℕ}
    (h : config.discoveryTarget env targetEnv refresh = .ok target) : 0 < refresh := by
  unfold DialConfig.discoveryTarget at h
  split_ifs at h with hzero
  exact Nat.pos_of_ne_zero hzero

theorem Started.onSchedule {l₀ : Loop A ε} (h : Started l₀) :
    0 < l₀.refresh ∧ OnSchedule l₀.refresh 0 l₀ := by
  cases h with
  | discovered config out targetEnv refresh h =>
    have hpos : 0 < refresh := by
      obtain ⟨target, htarget, -⟩ := Results.bind_eq_ok.mp h
      exact discoveryTarget_refresh htarget
    obtain ⟨build, pool, initial, tx, -, hne, -, rfl⟩ := connectDiscoveredWith_ok h
    exact ⟨hpos, rfl, fun h => absurd h hne, fun h => absurd h hne, fun h => absurd h hne,
      fun _ => rfl⟩
  | lazy config out targetEnv refresh h =>
    have hpos : 0 < refresh := by
      obtain ⟨target, htarget, -⟩ := Results.bind_eq_ok.mp h
      exact discoveryTarget_refresh htarget
    obtain ⟨seed, pool, tx, -, -, rfl⟩ := connectDiscoveredLazyWith_ok h
    refine ⟨hpos, rfl, fun _ => rfl, fun _ => ?_, fun _ => rfl, fun h => absurd rfl h⟩
    simp [Refresher.run]

theorem onSchedule_of_run {l₀ : Loop A ε} {es : List (Event A ε)} (hstart : Started l₀)
    (hrun : run step l₀ es = some l) : OnSchedule l₀.refresh (spent l₀ es) l := by
  have hD := run_total (D := OnSchedule l₀.refresh) (fun _ _ _ _ h hstep => h.step hstep)
    hstart.onSchedule.2 hrun
  rwa [zero_add] at hD

theorem lookups_on_schedule {l₀ : Loop A ε} {es : List (Event A ε)} (hstart : Started l₀)
    (hrun : run step l₀ es = some l) :
    (l.refresher.known = ∅ →
      l.delay = retrySchedule l₀.refresh (lookups l₀ es) ∧
        slept l₀ es = ∑ k ∈ Finset.range (lookups l₀ es), retrySchedule l₀.refresh k ∧
          ∀ n, lookups l₀ es = n + 2 → firstRetry * 2 ^ n ≤ l₀.refresh →
            slept l₀ es = firstRetry * (2 ^ (n + 1) - 1)) ∧
    (l.refresher.known ≠ ∅ →
      l.delay = l₀.refresh ∧ 0 < l.delay ∧ ∀ fs l', run step l fs = some l' →
        l'.refresher.known ≠ ∅ ∧ slept l fs = lookups l fs * l₀.refresh) := by
  have hsched : OnSchedule l₀.refresh (spent l₀ es) l := onSchedule_of_run hstart hrun
  constructor
  · intro hknown
    have hslept := hsched.slept hknown
    refine ⟨hsched.delay_unknown hknown, hslept, fun n hn hle => ?_⟩
    rw [← sum_retrySchedule hle, ← hn]
    exact hslept
  · intro hknown
    have hdelay := hsched.delay_known hknown
    refine ⟨hdelay, hdelay ▸ hstart.onSchedule.1, fun fs l' hfs => ?_⟩
    have hpaced : Paced l₀.refresh 0 l :=
      ⟨hknown, hsched.interval, hsched.known hknown, (Nat.zero_mul _).symm⟩
    have hD := run_total (D := Paced l₀.refresh) (fun _ _ _ _ h hstep => h.step hstep) hpaced hfs
    rw [zero_add] at hD
    exact ⟨hD.known, hD.slept⟩

end

/-! ## A name server that is slow to answer -/

def patient : Loop ℕ ℕ :=
  Refresher.run ⟨2, 2, ∅, ⟨1024, inserts (seedKeys 2) 0, 0, false, []⟩⟩ (30 * firstRetry) true

def unanswered : List (Event ℕ ℕ) := List.replicate 3 (.lookedUp .timedOut .ok)

theorem lookups_on_schedule_unanswered : ∃ l, run step patient unanswered = some l ∧
    slept patient unanswered = 3 * firstRetry ∧ l.delay = 4 * firstRetry := by
  have hstart : Started patient :=
    .lazy .defaults surroundings "CONFIG_GRPC" (30 * firstRetry) rfl
  have hrun : run step patient unanswered = some _ := rfl
  have hcount : lookups patient unanswered = 3 := rfl
  obtain ⟨hunknown, -⟩ := lookups_on_schedule hstart hrun
  obtain ⟨hdelay, -, hslept⟩ := hunknown rfl
  refine ⟨_, hrun, hslept 1 hcount (by decide), ?_⟩
  rw [hdelay, hcount]
  decide

end PaycloudHelper.Discovery
