import TransferLoad.Proofs.Run.Budget
import TransferLoad.Proofs.Run.Pacing
import TransferLoad.Proofs.Settings.InOrder

/-!
# How close workers come to the target rate

Each worker is to take an equal share of the target rate, so it aims for a gap of the number of workers
divided by this rate. Pauses end at whole milliseconds and nothing makes up for what this adds. So a worker
that never waits for the client keeps to the gap rounded up to whole milliseconds, in each single case and
so on average. That is close to the gap it aims for when the gap is ten milliseconds or more; when it is
shorter, the worker may stay far below its share.
-/

namespace TransferLoad

namespace RunSettings

/-- The gap that each worker aims for, in nanoseconds. -/
def share (s : RunSettings) : ℚ := 1_000_000_000 * s.workers.toNat / s.targetTps.toNat

/-- The pacing delay rounded up to whole milliseconds, in nanoseconds. -/
def keptGap (s : RunSettings) : Nat := nanosOfMillis (millisCovering s.pacingDelay)

/-- A gap differs from the one that was aimed for by a tenth of it at most. -/
def Near (s : RunSettings) (gap : ℚ) : Prop := |gap - s.share| ≤ s.share / 10

theorem pacingDelay_le_keptGap (s : RunSettings) : s.pacingDelay ≤ s.keptGap :=
  le_nanosOfMillis_millisCovering _

theorem keptGap_lt (s : RunSettings) : s.keptGap < s.pacingDelay + 1_000_000 :=
  nanosOfMillis_millisCovering_lt _

theorem pacingDelay_eq {s : RunSettings} (htarget : 0 < s.targetTps.toNat)
    (hfits : 1_000_000_000 * s.workers.toNat < 2 ^ 64 * s.targetTps.toNat) :
    s.pacingDelay = 1_000_000_000 * s.workers.toNat / s.targetTps.toNat := by
  exact pacingDelay_eq_of_lt htarget (Nat.div_lt_of_lt_mul (Nat.mul_comm (2 ^ 64) _ ▸ hfits))

/-- The pacing delay is the share without what does not make up a nanosecond. -/
theorem share_bounds {s : RunSettings} (htarget : 0 < s.targetTps.toNat)
    (hfits : 1_000_000_000 * s.workers.toNat < 2 ^ 64 * s.targetTps.toNat) :
    (s.pacingDelay : ℚ) ≤ s.share ∧ s.share < s.pacingDelay + 1 := by
  have htarget' : (0 : ℚ) < s.targetTps.toNat := Nat.cast_pos.mpr htarget
  rw [pacingDelay_eq htarget hfits]
  refine ⟨?_, ?_⟩
  · have hle : ((1_000_000_000 * s.workers.toNat / s.targetTps.toNat : Nat) : ℚ) ≤ _ := Nat.cast_div_le
    exact hle.trans_eq (by rw [share, Nat.cast_mul, Nat.cast_ofNat])
  · have hless := Nat.lt_mul_div_succ (1_000_000_000 * s.workers.toNat) htarget
    rw [Nat.mul_comm s.targetTps.toNat] at hless
    rw [share, div_lt_iff₀ htarget']
    exact_mod_cast hless

/-- Rounding makes a gap longer by less than a millisecond. -/
theorem keptGap_bounds {s : RunSettings} (htarget : 0 < s.targetTps.toNat)
    (hfits : 1_000_000_000 * s.workers.toNat < 2 ^ 64 * s.targetTps.toNat) :
    s.share - 1 < s.keptGap ∧ s.keptGap < s.share + 1_000_000 := by
  obtain ⟨hfloor, hceil⟩ := share_bounds htarget hfits
  have hlow : (s.pacingDelay : ℚ) ≤ s.keptGap := Nat.cast_le.mpr s.pacingDelay_le_keptGap
  have hhigh : (s.keptGap : ℚ) < s.pacingDelay + 1_000_000 := by exact_mod_cast s.keptGap_lt
  constructor <;> linarith

theorem near_keptGap {s : RunSettings} (htarget : 0 < s.targetTps.toNat)
    (hslow : s.targetTps.toNat ≤ 100 * s.workers.toNat)
    (hfits : 1_000_000_000 * s.workers.toNat < 2 ^ 64 * s.targetTps.toNat) : s.Near s.keptGap := by
  obtain ⟨hlow, hhigh⟩ := keptGap_bounds htarget hfits
  have hshare : (10_000_000 : ℚ) ≤ s.share := by
    have hslow' : (s.targetTps.toNat : ℚ) ≤ 100 * s.workers.toNat := by exact_mod_cast hslow
    rw [share, le_div_iff₀ (Nat.cast_pos.mpr htarget)]
    linarith
  rw [Near, abs_le]
  constructor <;> linarith

end RunSettings

/-! ### Even gaps -/

/-- The average gap between numbers, the latest first. -/
def averageGap (starts : List Nat) : ℚ :=
  ((starts.headD 0 : ℚ) - starts.getLastD 0) / (starts.length - 1)

def EvenlySpaced (gap : Nat) (starts : List Nat) : Prop :=
  starts.IsChain fun later earlier => later = earlier + gap

theorem averageGap_of_evenlySpaced {gap : Nat} {starts : List Nat} (heven : EvenlySpaced gap starts)
    (htwo : 2 ≤ starts.length) : averageGap starts = gap := by
  have hspan : ∀ first rest, EvenlySpaced gap (first :: rest) →
      first = (first :: rest).getLastD 0 + rest.length * gap := by
    intro first rest
    induction rest generalizing first with
    | nil => simp
    | cons next rest ih =>
      intro heven
      obtain ⟨hgap, heven⟩ := List.isChain_cons_cons.mp heven
      have hrest := ih next heven
      rw [List.getLastD_cons] at hrest ⊢
      rw [List.getLastD_cons, List.length_cons, Nat.succ_mul]
      omega
  cases starts with
  | nil => cases htwo
  | cons first rest =>
    have hlength : 0 < rest.length := Nat.le_of_succ_le_succ htwo
    have hfirst : (first : ℚ) = ((first :: rest).getLastD 0 : ℕ) + rest.length * gap := by
      exact_mod_cast hspan first rest heven
    have hgaps : (rest.length : ℚ) ≠ 0 := by exact_mod_cast hlength.ne'
    rw [averageGap, List.headD_cons, hfirst, List.length_cons, Nat.cast_succ, add_sub_cancel_left,
      add_sub_cancel_right, mul_div_cancel_left₀ _ hgaps]

/-! ### Workers that do not wait for the client -/

theorem millisCovering_add (millis nanos : Nat) :
    millisCovering (nanosOfMillis millis + nanos) = millis + millisCovering nanos := by
  unfold millisCovering nanosOfMillis
  split <;> split <;> omega

/-- Each submission of a worker is answered before the pacing delay is over. -/
def Client.Quick (client : Client) (delay worker : Nat) (attempts : List Attempt) : Prop :=
  EachAttempt (fun earlier a => ∀ payload, a.worker = worker → a.signed = .ok payload →
    nanosOfMillis (client.submit (callsOf earlier) a.time payload).latency < delay) attempts

variable {client : Client} {delay worker : Nat} {attempts earlier : List Attempt}

theorem Client.resumption_of_quick {a : Attempt} {payload : SignedPayload} (hsigned : a.signed = .ok payload)
    (hquick : nanosOfMillis (client.submit (callsOf earlier) a.time payload).latency < delay) :
    nanosOfMillis (client.resumption delay earlier a) =
      nanosOfMillis a.time + nanosOfMillis (millisCovering delay) := by
  rw [resumption, hsigned]
  dsimp only
  rw [if_neg (Nat.not_le.mpr hquick), millisCovering_add]
  exact Nat.mul_add ..

/-- Quick submissions are evenly spaced, and the next one keeps to the same gap. -/
theorem Client.Times.evenlySpaced (htimes : client.Times delay attempts)
    (hquick : client.Quick delay worker attempts) :
    EvenlySpaced (nanosOfMillis (millisCovering delay)) (startsOf worker attempts) ∧
      ∀ last ∈ (startsOf worker attempts).head?, nanosOfMillis (client.nextStart delay worker attempts) =
        last + nanosOfMillis (millisCovering delay) := by
  induction attempts with
  | nil => exact ⟨List.IsChain.nil, nofun⟩
  | cons a earlier ih =>
    obtain ⟨htime, htimes⟩ := eachAttempt_cons.mp htimes
    obtain ⟨hlatency, hquick⟩ := eachAttempt_cons.mp hquick
    obtain ⟨heven, hnext⟩ := ih htimes hquick
    by_cases hworker : a.worker = worker
    · subst hworker
      rw [nextStart_cons_self]
      rw [← htime] at hnext
      cases hsigned : a.signed with
      | error cause =>
        rw [startsOf_cons_refused hsigned, resumption_of_error hsigned]
        exact ⟨heven, hnext⟩
      | ok payload =>
        rw [startsOf_cons_signed hsigned, resumption_of_quick hsigned (hlatency payload rfl hsigned)]
        refine ⟨List.isChain_cons.mpr ⟨hnext, heven⟩, ?_⟩
        rintro last hlast
        cases hlast
        rfl
    · rw [startsOf_cons_of_ne hworker, nextStart_cons_of_ne hworker]
      exact ⟨heven, hnext⟩

theorem Client.quick_steady {latency : Nat} (hlatency : nanosOfMillis latency < delay)
    (answer : Except Failure String) (worker : Nat) (attempts : List Attempt) :
    (Client.steady latency answer).Quick delay worker attempts :=
  fun _ _ _ _ _ _ _ => hlatency

namespace RunInput

theorem targetTps_pos_of_ok {r : RunInput} {report : FinalReport} (hresult : r.run.result = .ok report) :
    0 < r.settings.targetTps.toNat :=
  toNat_pos_of_ne_zero (RunSettings.validate_eq_ok_iff.mp (start_of_ok hresult).1).rate

theorem evenlySpaced_of_run {r : RunInput} {report : FinalReport} (hresult : r.run.result = .ok report)
    {worker : Nat} (hquick : r.client.Quick r.settings.pacingDelay worker r.run.attempts) :
    EvenlySpaced r.settings.keptGap (startsOf worker r.run.attempts) :=
  ((paced_of_run hresult).times.evenlySpaced hquick).1

/-- A worker whose submissions are all answered before the pacing delay is over keeps to the delay rounded up
to whole milliseconds. So its average gap is less than a millisecond longer than its share of the target rate
asks for, which is near enough if the share is a hundred transfers in a second or fewer. -/
theorem average_gap (r : RunInput) {report : FinalReport} (hresult : r.run.result = .ok report) (worker : Nat)
    (hquick : r.client.Quick r.settings.pacingDelay worker r.run.attempts)
    (htwo : 2 ≤ (startsOf worker r.run.attempts).length) :
    EvenlySpaced r.settings.keptGap (startsOf worker r.run.attempts) ∧
      averageGap (startsOf worker r.run.attempts) = r.settings.keptGap ∧
      (1_000_000_000 * r.settings.workers.toNat < 2 ^ 64 * r.settings.targetTps.toNat →
        r.settings.share - 1 < averageGap (startsOf worker r.run.attempts) ∧
        averageGap (startsOf worker r.run.attempts) < r.settings.share + 1_000_000 ∧
        (r.settings.targetTps.toNat ≤ 100 * r.settings.workers.toNat →
          r.settings.Near (averageGap (startsOf worker r.run.attempts)))) := by
  have heven := evenlySpaced_of_run hresult hquick
  have haverage := averageGap_of_evenlySpaced heven htwo
  have htarget := targetTps_pos_of_ok hresult
  refine ⟨heven, haverage, fun hfits => ?_⟩
  obtain ⟨hlow, hhigh⟩ := RunSettings.keptGap_bounds htarget hfits
  rw [haverage]
  exact ⟨hlow, hhigh, fun hslow => RunSettings.near_keptGap htarget hslow hfits⟩

/-- A run of 111 transfers in a second, made by one worker and answered at once. -/
def fast : RunInput :=
  { small (.steady 0 (.ok "a")) with
    settings := { targetTps := 111, durationSecs := 1, workers := 1, output := "out" } }

theorem not_near_fast : ¬ fast.settings.Near 10_000_000 := by
  have hshare : fast.settings.share = 1_000_000_000 / 111 := by
    rw [RunSettings.share, show fast.settings.workers.toNat = 1 from rfl,
      show fast.settings.targetTps.toNat = 111 from rfl]
    norm_num
  rw [RunSettings.Near, hshare]
  norm_num [abs_of_pos]

/-- At two transfers a second the worker is near its share. At 111 it is not, and yet every transfer is
accepted. -/
theorem average_gap_small_fast :
    (small (.steady 10 (.ok "a"))).settings.Near
        (averageGap (startsOf 0 (small (.steady 10 (.ok "a"))).run.attempts)) ∧
      ∃ report, fast.run.result = .ok report ∧
        (report.sent = 111 ∧ report.errors = 0 ∧ report.interrupted = false) ∧
        averageGap (startsOf 0 fast.run.attempts) = 10_000_000 ∧
        ¬ fast.settings.Near (averageGap (startsOf 0 fast.run.attempts)) := by
  constructor
  · have hfacts : ((small (.steady 10 (.ok "a"))).run.result.map fun _ =>
        (startsOf 0 (small (.steady 10 (.ok "a"))).run.attempts).length).toOption = some 2 := by
      decide +kernel
    obtain ⟨report, hresult, hlength⟩ := ok_of_map_eq_some hfacts
    have hall := average_gap (small (.steady 10 (.ok "a"))) hresult 0
      (Client.quick_steady (by decide) _ 0 _) (Nat.le_of_eq hlength.symm)
    exact (hall.2.2 (by decide)).2.2 (by decide)
  · have hfacts : (fast.run.result.map fun report => (report.sent, report.errors, report.interrupted,
        (startsOf 0 fast.run.attempts).length)).toOption = some (111, 0, false, 111) := by
      decide +kernel
    obtain ⟨report, hresult, hfacts⟩ := ok_of_map_eq_some hfacts
    simp only [Prod.mk.injEq] at hfacts
    obtain ⟨hsent, herrors, hinterrupted, hlength⟩ := hfacts
    obtain ⟨-, haverage, -⟩ := average_gap fast hresult 0 (Client.quick_steady (by decide) _ 0 _)
      (by rw [hlength]; decide)
    have hgap : averageGap (startsOf 0 fast.run.attempts) = 10_000_000 := by
      rw [haverage, show fast.settings.keptGap = 10_000_000 from rfl]
      norm_num
    exact ⟨report, hresult, ⟨hsent, herrors, hinterrupted⟩, hgap, hgap ▸ not_near_fast⟩

end RunInput

end TransferLoad
