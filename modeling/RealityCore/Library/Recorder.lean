import Mathlib.Data.List.Induction
import Mathlib.Data.Option.Basic
import RealityCore.Library.Machine
import RealityCore.Library.Outcome

/-!
# Recording a value and comparing later ones

A recorder collects a value from each event. An event in the mode of writing has its value kept for
the events in the mode of comparing, which pass when they collect the same value again. An attempt
to write may be refused, and then nothing changes; or it may be cut off after what was there before
is gone, and then only a part of the value is left, which mostly is no value at all. A script that
stores what it writes, and compares what it loads again, answers every run as the recorder that
keeps the value itself.
-/

namespace Recorder

variable {E α N : Type*}

/-- What an event does with the value that it collects. -/
inductive Mode where
  | write
  | compare
  deriving DecidableEq

/-- How an attempt to write ends: all is written, it is not begun, or it fails when the first octets
are written. -/
inductive Attempt where
  | whole
  | refused
  | cut (length : ℕ)
  deriving DecidableEq

/-- An attempt leaves a value when it writes all of it, or as many octets as are enough for it. -/
def Attempt.Leaves (enough : ℕ) : Attempt → Prop
  | .whole => True
  | .refused => False
  | .cut length => enough ≤ length

instance decidableLeaves (enough : ℕ) : DecidablePred (Attempt.Leaves enough)
  | .whole => isTrue trivial
  | .refused => isFalse id
  | .cut length => inferInstanceAs (Decidable (enough ≤ length))

/-- An event, with the end of its attempt to write. -/
structure Event (E : Type*) where
  mode : Mode
  source : E
  attempt : Attempt

section Keeping

variable (collect : E → Option α) (enough : α → ℕ)

/-- What is kept after an attempt to write a value. -/
def keepValue (kept : Option α) (value : α) (attempt : Attempt) : Option α :=
  if attempt = .refused then kept
  else if attempt.Leaves (enough value) then some value
  else none

/-- What is kept after an event. -/
def keep (kept : Option α) (event : Event E) : Option α :=
  match event.mode, collect event.source with
  | .write, some value => keepValue enough kept value event.attempt
  | _, _ => kept

/-- Whether an event passes, by what is kept before it. -/
def Passes (kept : Option α) (event : Event E) : Prop :=
  match event.mode with
  | .compare => ∃ value, collect event.source = some value ∧ kept = some value
  | .write => event.attempt = .whole ∧ ∃ value, collect event.source = some value

/-- What is kept after a list of events, when nothing was kept before. -/
def lastKept (events : List (Event E)) : Option α := events.foldl (keep collect enough) none

end Keeping

/-- An event in the mode of writing leaves a value that it has. -/
def Records (has : E → α → Prop) (enough : α → ℕ) (event : Event E) (value : α) : Prop :=
  event.mode = .write ∧ has event.source value ∧ event.attempt.Leaves (enough value)

/-- An event in the mode of writing begins to write a value that it has. -/
def Overwrites (has : E → α → Prop) (event : Event E) : Prop :=
  event.mode = .write ∧ event.attempt ≠ .refused ∧ ∃ value, has event.source value

/-- The last of the events that begin to write leaves this value. -/
def RecordedLast (has : E → α → Prop) (enough : α → ℕ) (events : List (Event E)) (value : α) :
    Prop :=
  ∃ front last back, events = front ++ last :: back ∧ Records has enough last value ∧
    ∀ later ∈ back, ¬Overwrites has later

/-- What a function collects. -/
abbrev Collects (collect : E → Option α) (source : E) (value : α) : Prop :=
  collect source = some value

/-- What leaves a value begins to write it. -/
theorem Records.overwrites {has : E → α → Prop} {enough : α → ℕ} {event : Event E} {value : α}
    (h : Records has enough event value) : Overwrites has event := by
  obtain ⟨hmode, hvalue, hleaves⟩ := h
  refine ⟨hmode, fun hrefused => ?_, value, hvalue⟩
  rw [hrefused] at hleaves
  exact hleaves

/-- An event that begins to write keeps the value that it leaves, and nothing else. -/
theorem keep_of_overwrites {collect : E → Option α} {enough : α → ℕ} {event : Event E}
    (h : Overwrites (Collects collect) event) (kept : Option α) (value : α) :
    keep collect enough kept event = some value ↔
      Records (Collects collect) enough event value := by
  obtain ⟨hmode, hattempt, written, hwritten⟩ := h
  simp only [Collects] at hwritten
  simp only [keep, keepValue, Records, Collects, hmode, hwritten, if_neg hattempt, true_and,
    Option.ite_none_right_eq_some, Option.some.injEq]
  rw [and_comm]
  exact and_congr_right fun heq => by rw [heq]

/-- Another event leaves what is kept. -/
theorem keep_of_not_overwrites {collect : E → Option α} {enough : α → ℕ} {event : Event E}
    (h : ¬Overwrites (Collects collect) event) (kept : Option α) :
    keep collect enough kept event = kept := by
  rw [keep]
  split
  · next value hmode hvalue =>
    rw [keepValue, if_pos]
    by_contra hattempt
    exact h ⟨hmode, hattempt, value, hvalue⟩
  · rfl

/-- An event at the end begins to write, or what was recorded last before it is so still. -/
theorem recordedLast_concat_iff {has : E → α → Prop} {enough : α → ℕ} {events : List (Event E)}
    {event : Event E} {value : α} :
    RecordedLast has enough (events ++ [event]) value ↔
      Records has enough event value ∨
        ¬Overwrites has event ∧ RecordedLast has enough events value := by
  constructor
  · rintro ⟨front, last, back, heq, hlast, hback⟩
    rcases List.eq_nil_or_concat back with rfl | ⟨back, final, rfl⟩
    · obtain ⟨-, heq⟩ := List.append_inj' heq rfl
      rw [← List.singleton_inj.mp heq] at hlast
      exact .inl hlast
    · rw [List.concat_eq_append] at heq hback
      rw [← List.cons_append, ← List.append_assoc] at heq
      obtain ⟨hevents, hfinal⟩ := List.append_inj' heq rfl
      refine .inr ⟨?_, front, last, back, hevents, hlast, fun later hlater =>
        hback later (List.mem_append_left _ hlater)⟩
      rw [List.singleton_inj.mp hfinal]
      exact hback final (List.mem_append_right _ (List.mem_singleton_self _))
  · rintro (hevent | ⟨hevent, front, last, back, rfl, hlast, hback⟩)
    · exact ⟨events, event, [], rfl, hevent, by simp⟩
    · refine ⟨front, last, back ++ [event], by simp, hlast, fun later hlater => ?_⟩
      rcases List.mem_append.mp hlater with hmem | hmem
      · exact hback later hmem
      · rwa [List.mem_singleton.mp hmem]

/-- Behind an event that is cut off before enough of its value is written, nothing is recorded. -/
theorem not_recordedLast_of_cut {has : E → α → Prop} {enough : α → ℕ} {events : List (Event E)}
    {source : E} {value : α} {length : ℕ} (hvalue : has source value)
    (hlength : length < enough value) :
    ¬RecordedLast has enough (events ++ [⟨.write, source, .cut length⟩]) value := by
  rw [recordedLast_concat_iff]
  rintro (⟨-, -, hleaves⟩ | ⟨hkept, -⟩)
  · exact Nat.not_le_of_gt hlength hleaves
  · exact hkept ⟨rfl, Attempt.noConfusion, value, hvalue⟩

/-- What is kept is what was recorded last. -/
theorem lastKept_eq_some_iff {collect : E → Option α} {enough : α → ℕ} {events : List (Event E)}
    {value : α} : lastKept collect enough events = some value ↔
      RecordedLast (Collects collect) enough events value := by
  induction events using List.reverseRecOn with
  | nil => simp [lastKept, RecordedLast]
  | append_singleton events event ih =>
    rw [lastKept, List.foldl_concat, ← lastKept, recordedLast_concat_iff]
    by_cases hevent : Overwrites (Collects collect) event
    · rw [keep_of_overwrites hevent, or_iff_left fun h => h.1 hevent]
    · rw [keep_of_not_overwrites hevent, ih, or_iff_right fun h => hevent h.overwrites,
        and_iff_right hevent]

/-- A recorder whose state stands for what is kept: what each event leaves of it, and how it
answers. A value that is not good need not be kept. -/
structure Represents (collect : E → Option α) (enough : α → ℕ) (good : α → Prop)
    (stands : N → Option α → Prop) (step : N → Event E → N × Bool) : Prop where
  keep : ∀ {stored kept event}, stands stored kept →
    (∀ value, collect event.source = some value → good value) →
      stands (step stored event).1 (keep collect enough kept event)
  answer_iff : ∀ {stored kept event}, stands stored kept →
    ((step stored event).2 = true ↔ Passes collect kept event)

namespace Represents

variable {collect : E → Option α} {enough : α → ℕ} {good : α → Prop} {stands : N → Option α → Prop}
  {step : N → Event E → N × Bool}

/-- The state after a run stands for the value last kept. -/
theorem run_stands (h : Represents collect enough good stands step) {stored : N}
    (hstored : stands stored none) (events : List (Event E))
    (hgood : ∀ event ∈ events, ∀ value, collect event.source = some value → good value) :
    stands (Machine.run step stored events).2 (lastKept collect enough events) := by
  suffices hrun : ∀ {stored kept}, stands stored kept →
      stands (Machine.run step stored events).2 (events.foldl (Recorder.keep collect enough) kept)
    from hrun hstored
  clear hstored stored
  induction events with
  | nil => exact fun hstands => hstands
  | cons event events ih =>
    intro stored kept hstands
    obtain ⟨hevent, hevents⟩ := List.forall_mem_cons.mp hgood
    exact ih hevents (h.keep hstands hevent)

/-- An event in the mode of comparing passes after a run exactly when the last value that was
recorded is the one that it collects. -/
theorem compare_after_run (h : Represents collect enough good stands step) {stored : N}
    (hstored : stands stored none) (events : List (Event E))
    (hgood : ∀ event ∈ events, ∀ value, collect event.source = some value → good value)
    (event : Event E) (hmode : event.mode = .compare) :
    (step (Machine.run step stored events).2 event).2 = true ↔
      ∃ value, collect event.source = some value ∧
        RecordedLast (Collects collect) enough events value := by
  rw [h.answer_iff (h.run_stands hstored events hgood), Passes, hmode]
  simp only [lastKept_eq_some_iff]

end Represents

/-- Values that stand for other ones are recorded last when these are. -/
theorem recordedLast_iff {γ : Type*} {collect : E → Option α} {has : E → γ → Prop} {encode : γ → α}
    {enough : α → ℕ} (hcollect : ∀ source value, collect source = some value ↔
      ∃ c, has source c ∧ value = encode c)
    {events : List (Event E)} {c : γ}
    (hinj : ∀ source d, has source d → encode d = encode c → d = c) :
    RecordedLast (Collects collect) enough events (encode c) ↔
      RecordedLast has (fun c => enough (encode c)) events c := by
  have hrecords (event : Event E) : Records (Collects collect) enough event (encode c) ↔
      Records has (fun c => enough (encode c)) event c := by
    refine and_congr_right fun _ => and_congr_left fun _ => ?_
    rw [Collects, hcollect]
    constructor
    · rintro ⟨d, hd, heq⟩
      rwa [← hinj _ d hd heq.symm]
    · exact fun hc => ⟨c, hc, rfl⟩
  have hoverwrites (event : Event E) : Overwrites (Collects collect) event ↔
      Overwrites has event := by
    refine and_congr_right fun _ => and_congr_right fun _ => ?_
    simp only [Collects, hcollect]
    exact ⟨fun ⟨_, d, hd, _⟩ => ⟨d, hd⟩, fun ⟨d, hd⟩ => ⟨_, d, hd, rfl⟩⟩
  simp only [RecordedLast, hrecords, hoverwrites]

/-! ## Scripts -/

section Script

variable {F : Type*} {β : Type}

/-- A script that collects a value, and stores it or compares what it loads with it. What it stores
also tells whether all was written. -/
structure Script (E N F : Type*) (β : Type) where
  collect : N → E → Except F β
  store : β → Attempt → N → N × Bool
  unstored : F
  load : N → E → Except F β
  same : β → β → Bool
  different : F

namespace Script

variable (script : Script E N F β)

/-- What a script does: what it leaves stored, and its outcome. -/
def perform (stored : N) (event : Event E) : N × Except F Unit :=
  match script.collect stored event.source with
  | .error failure => (stored, .error failure)
  | .ok current =>
    match event.mode with
    | .write =>
      let (left, written) := script.store current event.attempt stored
      (left, if written then .ok () else .error script.unstored)
    | .compare => (stored, do
        let first ← script.load stored event.source
        if ¬script.same first current then .error script.different else .ok ())

/-- The status of an outcome: one for a failure that is caught. -/
def status (isCaught : F → Bool) : Except F Unit → Except F ℕ
  | .ok () => .ok 0
  | .error failure => if isCaught failure then .ok 1 else .error failure

/-- A script with its status. -/
def main (isCaught : F → Bool) (stored : N) (event : Event E) : N × Except F ℕ :=
  let (left, outcome) := script.perform stored event
  (left, status isCaught outcome)

/-- A script as a machine that answers whether its outcome is a success. -/
def step (stored : N) (event : Event E) : N × Bool :=
  ((script.perform stored event).1, (script.perform stored event).2.isOk)

/-- The status is zero exactly when nothing is raised. -/
theorem status_eq_zero_iff {isCaught : F → Bool} {outcome : Except F Unit} :
    status isCaught outcome = .ok 0 ↔ outcome.isOk = true := by
  cases outcome with
  | ok => exact iff_of_true rfl rfl
  | error failure =>
    cases hcaught : isCaught failure <;> simp [status, hcaught, Except.isOk, Except.toBool]

variable {script} in
/-- A comparison succeeds exactly when what is loaded is the same as what is collected. -/
theorem compare_isOk_iff {stored : N} {source : E} {attempt : Attempt} :
    (script.perform stored ⟨.compare, source, attempt⟩).2.isOk = true ↔
      ∃ current first, script.collect stored source = .ok current ∧
        script.load stored source = .ok first ∧ script.same first current = true := by
  rw [perform]
  cases script.collect stored source with
  | error failure => simp [Except.isOk, Except.toBool]
  | ok current =>
    cases script.load stored source with
    | error failure => simp [bind, Except.bind, Except.isOk, Except.toBool]
    | ok first =>
      cases hsame : script.same first current <;>
        simp [bind, Except.bind, hsame, Except.isOk, Except.toBool]

/-- A script whose collected values do not depend on what it has stored, which stores what an
attempt leaves of a value, and which finds what it has stored the same only as the value that is
kept. -/
structure Keeps (collect : E → Option β) (enough : β → ℕ) (good : β → Prop)
    (stands : N → Option β → Prop) : Prop where
  collect_eq : ∀ {stored kept} source, stands stored kept →
    (script.collect stored source).toOption = collect source
  store : ∀ {stored kept value} attempt, stands stored kept → good value →
    stands (script.store value attempt stored).1 (keepValue enough kept value attempt)
  store_isOk : ∀ {stored kept} value attempt, stands stored kept →
    ((script.store value attempt stored).2 = true ↔ attempt = .whole)
  same_iff : ∀ {stored kept source current}, stands stored kept → collect source = some current →
    ((∃ first, script.load stored source = .ok first ∧ script.same first current = true) ↔
      kept = some current)

variable {script} {collect : E → Option β} {enough : β → ℕ} {good : β → Prop}
  {stands : N → Option β → Prop}

/-- A script that keeps its values is a recorder of them. -/
theorem Keeps.represents (h : script.Keeps collect enough good stands) :
    Represents collect enough good stands script.step := by
  constructor
  · intro stored kept event hstands hgood
    rw [step, perform, keep]
    rw [← h.collect_eq event.source hstands] at hgood ⊢
    cases hcollect : script.collect stored event.source with
    | error failure => cases event.mode <;> exact hstands
    | ok current =>
      cases event.mode with
      | compare => exact hstands
      | write => exact h.store event.attempt hstands (hgood current (by rw [hcollect]; rfl))
  · intro stored kept event hstands
    have hcollected := h.collect_eq event.source hstands
    obtain ⟨mode, source, attempt⟩ := event
    cases mode with
    | compare =>
      refine compare_isOk_iff.trans ?_
      cases hcollect : script.collect stored source with
      | error failure => simp [Passes, ← hcollected, hcollect, Except.toOption]
      | ok current =>
        have hsome : collect source = some current := by rw [← hcollected, hcollect]; rfl
        simp only [Passes, hsome, Except.ok.injEq, Option.some.injEq, exists_and_left,
          exists_eq_left']
        exact h.same_iff hstands hsome
    | write =>
      rw [step, perform, Passes, ← hcollected]
      cases hcollect : script.collect stored source with
      | error failure => simp [Except.isOk, Except.toBool, Except.toOption]
      | ok current =>
        rw [← h.store_isOk current attempt hstands]
        cases hstored : (script.store current attempt stored).2 <;>
          simp [hstored, Except.isOk, Except.toBool, Except.toOption]

/-- The status of a run does not matter for what is left by the runs. -/
theorem run_main_snd (isCaught : F → Bool) (stored : N) (runs : List (Event E)) :
    (Machine.run (script.main isCaught) stored runs).2 =
      (Machine.run script.step stored runs).2 := by
  induction runs generalizing stored with
  | nil => rfl
  | cons run runs ih => exact ih _

/-- After any runs of a script that keeps its values, a comparison has the status zero exactly when
the last value that was recorded is the one that it has, where what is collected stands for it. -/
theorem Keeps.main_after_runs (h : script.Keeps collect enough good stands) (isCaught : F → Bool)
    {γ : Type*} {has : E → γ → Prop} {encode : γ → β}
    (hcollect : ∀ source value, collect source = some value ↔ ∃ c, has source c ∧ value = encode c)
    (hinj : ∀ source other c d, has source c → has other d → encode d = encode c → d = c)
    {stored : N} (hstored : stands stored none) (runs : List (Event E))
    (hgood : ∀ run ∈ runs, ∀ c, has run.source c → good (encode c))
    (source : E) (attempt : Attempt) :
    (script.main isCaught (Machine.run (script.main isCaught) stored runs).2
      ⟨.compare, source, attempt⟩).2 = .ok 0 ↔
        ∃ c, has source c ∧ RecordedLast has (fun c => enough (encode c)) runs c := by
  have hvalues : ∀ run ∈ runs, ∀ value, collect run.source = some value → good value := by
    intro run hrun value hvalue
    obtain ⟨c, hc, rfl⟩ := (hcollect _ _).mp hvalue
    exact hgood run hrun c hc
  rw [run_main_snd]
  refine status_eq_zero_iff.trans ((h.represents.compare_after_run hstored runs hvalues
    ⟨.compare, source, attempt⟩ rfl).trans ?_)
  constructor
  · rintro ⟨_, hvalue, hlast⟩
    obtain ⟨c, hc, rfl⟩ := (hcollect _ _).mp hvalue
    exact ⟨c, hc, (recordedLast_iff hcollect fun other d => hinj source other c d hc).mp hlast⟩
  · rintro ⟨c, hc, hlast⟩
    exact ⟨_, (hcollect _ _).mpr ⟨c, hc, rfl⟩,
      (recordedLast_iff hcollect fun other d => hinj source other c d hc).mpr hlast⟩

end Script

end Script

end Recorder
