import TaskQueue.Proofs.Results
import TaskQueue.Proofs.Text.Tokens
import TaskQueue.Schedule.Loop
import TaskQueue.Simulation.WorkerProcess

/-!
# Which settings are accepted

A variable holds a number of retries, a text, or an interval in milliseconds. What a text under it
means is told here by relations (`IsCount`, `IsText`, `IsInterval`), and why one is refused by
another (`Wrong`). Settings are accepted when every variable that is set means something; else the
first one that does not, in the order of `Variable.inOrder`, is reported (`FirstWrong`).

Results:

* `Decides.ok_iff`, `Decides.error_iff`: a reader of one variable decides what its text means;
* `readCount_decides`, `readText_decides`, `readInterval_decides`: the three readers do;
* `read_eq_ok_iff`, `read_eq_error_iff`, `exists_read_iff`: how all settings are read;
* `settings_vetted`: **settings are accepted when every variable that is set is valid.**
-/

namespace TaskQueue.Worker

open Time Text

/-! ## What a setting means -/

/-- What a variable holds. -/
inductive Kind where
  | count
  | text
  | interval
  deriving DecidableEq

namespace Variable

/-- The kind of a variable. -/
def kind : Variable → Kind
  | maxRetries => .count
  | redisUrl | queue | group | consumer => .text
  | promoterInterval | schedulerInterval => .interval

/-- The variables in the order in which they are checked. -/
def inOrder : List Variable :=
  [maxRetries, redisUrl, queue, group, consumer, promoterInterval, schedulerInterval]

end Variable

/-- A text is a numeral, but for the blanks around it. -/
def StandsFor (s : String) (n : Nat) : Prop :=
  ∃ t : String, Trims s.toList t.toList ∧ Numeral t.toList n

theorem standsFor_iff {s : String} {n : Nat} : StandsFor s n ↔ Numeral (trim s).toList n := by
  simp only [StandsFor, trims_iff, exists_eq_left']

/-- A text is a number of 32 bits. -/
def IsCount (s : String) (n : UInt32) : Prop := StandsFor s n.toNat

/-- A text that is not blank stands for itself, without the blanks around it. -/
def IsText (s t : String) : Prop := Trims s.toList t.toList ∧ t ≠ ""

/-- A text is a number of milliseconds of 64 bits that is not zero. -/
def IsInterval (s : String) (d : Span) : Prop :=
  ∃ n : UInt64, StandsFor s n.toNat ∧ 0 < n.toNat ∧ d.nanos = n.toNat * nanosPerMilli

/-- A text means something of a kind. -/
def Kind.Admits (s : String) : Kind → Prop
  | count => ∃ n, IsCount s n
  | text => ∃ t, IsText s t
  | interval => ∃ d, IsInterval s d

/-- **Why a text is refused** as the setting of a variable. -/
inductive Wrong (v : Variable) (s : String) : SettingsError → Prop where
  | blank (kind : v.kind = .text) (blank : ∀ c ∈ s.toList, isBlank c = true) :
      Wrong v s (.empty v)
  /-- It is no number of 64 bits. -/
  | unread (kind : v.kind ≠ .text) (none : ∀ n : UInt64, ¬ StandsFor s n.toNat) :
      Wrong v s (.notANumber v s)
  /-- It is one of 64 bits, but not of 32. -/
  | large {n : UInt64} (kind : v.kind = .count) (number : StandsFor s n.toNat)
      (large : 4294967296 ≤ n.toNat) : Wrong v s (.notANumber v n.toNat.repr)
  | zero (kind : v.kind = .interval) (number : StandsFor s 0) : Wrong v s (.zero v)

/-! ## Reading one variable -/

variable {α : Type} {v : Variable} {s : String}

/-- **A reader decides what the text of a variable means**, if there is one. -/
structure Decides (v : Variable) (Means : String → α → Prop) (given : Option String)
    (r : Except SettingsError (Option α)) : Prop where
  unset : given = none → r = .ok none
  means : ∀ s a, given = some s → Means s a → r = .ok (some a)
  wrong : ∀ s e, given = some s → Wrong v s e → r = .error e
  total : ∀ s, (∃ a, Means s a) ∨ ∃ e, Wrong v s e

namespace Decides

variable {Means : String → α → Prop} {given : Option String} {r : Except SettingsError (Option α)}
  {e : SettingsError}

theorem ok_iff (h : Decides v Means given r) {o : Option α} :
    r = .ok o ↔ Option.Rel Means given o := by
  constructor
  · rintro rfl
    cases hg : given with
    | none =>
      obtain rfl := Except.ok.inj (h.unset hg)
      exact .none
    | some s =>
      rcases h.total s with ⟨a, ha⟩ | ⟨e, he⟩
      · obtain rfl := Except.ok.inj (h.means s a hg ha)
        exact .some ha
      · exact nomatch h.wrong s e hg he
  · intro hrel
    cases hrel with
    | none => exact h.unset rfl
    | some means => exact h.means _ _ rfl means

theorem error_iff (h : Decides v Means given r) :
    r = .error e ↔ ∃ s, given = some s ∧ Wrong v s e := by
  constructor
  · rintro rfl
    cases hg : given with
    | none => exact nomatch h.unset hg
    | some s =>
      rcases h.total s with ⟨a, ha⟩ | ⟨e', he⟩
      · exact nomatch h.means s a hg ha
      · obtain rfl := Except.error.inj (h.wrong s e' hg he)
        exact ⟨s, rfl, he⟩
  · rintro ⟨s, hg, he⟩
    exact h.wrong s e hg he

end Decides

namespace Settings

variable {source : Source}

theorem readText_decides (v : Variable) (hv : v.kind = .text) :
    Decides v IsText (source v.name) (readText source v) := by
  unfold readText
  refine ⟨fun hg => by rw [hg], fun s t hg ht => ?_, fun s e hg he => ?_, fun s => ?_⟩
  · obtain ⟨trims, hne⟩ := ht
    obtain rfl := trims_iff.mp trims
    simp only [hg]
    rw [if_neg (mt trim_eq_empty_iff.mpr hne)]
  · cases he with
    | blank _ blank =>
      have hblank : isAllBlank s = true := List.all_eq_true.mpr blank
      simp only [hg]
      rw [if_pos hblank]
    | unread kind => exact absurd hv kind
    | large kind | zero kind => exact nomatch hv.symm.trans kind
  · by_cases hblank : trim s = ""
    · exact .inr ⟨_, .blank hv (List.all_eq_true.mp (trim_eq_empty_iff.mp hblank))⟩
    · exact .inl ⟨_, trims_iff.mpr rfl, hblank⟩

theorem readNumber_unset (hg : source v.name = none) : readNumber source v = .ok none := by
  unfold readNumber
  rw [hg]

theorem readNumber_of_standsFor {n : UInt64} (hg : source v.name = some s)
    (h : StandsFor s n.toNat) : readNumber source v = .ok (some n.toNat) := by
  have hread : natural? maxNat64 (trim s) = some n.toNat :=
    natural?_eq_some_iff.mpr ⟨standsFor_iff.mp h, Nat.le_of_lt_succ n.toNat_lt⟩
  unfold readNumber
  simp only [hg, hread]

theorem readNumber_of_none (hg : source v.name = some s)
    (h : ∀ n : UInt64, ¬ StandsFor s n.toNat) :
    readNumber source v = .error (.notANumber v s) := by
  have hnone : natural? maxNat64 (trim s) = none := by
    refine natural?_eq_none_iff.mpr fun n hn => Nat.lt_of_not_le fun hle => h (.ofNat n) ?_
    rwa [UInt64.toNat_ofNat_of_lt' (Nat.lt_succ_of_le hle), standsFor_iff]
  unfold readNumber
  simp only [hg, hnone]

theorem readCount_decides (v : Variable) (hv : v.kind = .count) :
    Decides v IsCount (source v.name) (readCount source v) := by
  unfold readCount
  refine ⟨fun hg => ?_, fun s n hg hn => ?_, fun s e hg he => ?_, fun s => ?_⟩
  · rw [readNumber_unset hg]
    rfl
  · have hnumber : StandsFor s n.toUInt64.toNat := by
      rw [UInt32.toNat_toUInt64]
      exact hn
    have hle : n.toNat ≤ maxNat32 := Nat.le_of_lt_succ n.toNat_lt
    rw [readNumber_of_standsFor hg hnumber, UInt32.toNat_toUInt64]
    show (if n.toNat ≤ maxNat32 then _ else _) = _
    rw [if_pos hle, UInt32.ofNat_toNat]
    rfl
  · cases he with
    | blank kind | zero kind => exact nomatch hv.symm.trans kind
    | unread _ none =>
      rw [readNumber_of_none hg none]
      rfl
    | @large n _ number large =>
      have hgt : ¬ n.toNat ≤ maxNat32 := Nat.not_le_of_lt large
      rw [readNumber_of_standsFor hg number]
      show (if n.toNat ≤ maxNat32 then _ else _) = _
      rw [if_neg hgt]
      rfl
  · by_cases hex : ∃ n : UInt64, StandsFor s n.toNat
    · obtain ⟨n, hn⟩ := hex
      by_cases hlt : n.toNat < 4294967296
      · refine .inl ⟨.ofNat n.toNat, ?_⟩
        unfold IsCount
        rwa [UInt32.toNat_ofNat_of_lt' hlt]
      · exact .inr ⟨_, .large hv hn (Nat.le_of_not_lt hlt)⟩
    · exact .inr ⟨_, .unread (by rw [hv]; decide) (not_exists.mp hex)⟩

theorem nanos_ofMillis (n : UInt64) :
    (Span.ofMillis n.toNat).nanos = n.toNat * nanosPerMilli := by
  unfold Span.ofMillis
  dsimp only
  rw [Nat.min_eq_left (Nat.le_of_lt_succ n.toNat_lt)]
  rfl

/-- A number of milliseconds that is not zero is taken as a span. -/
theorem readInterval_of_pos {n : UInt64} (hg : source v.name = some s)
    (h : StandsFor s n.toNat) (hpos : 0 < n.toNat) :
    readInterval source v = .ok (some (.ofMillis n.toNat)) := by
  unfold readInterval
  rw [readNumber_of_standsFor hg h]
  cases hn : n.toNat with
  | zero => omega
  | succ k => rfl

theorem readInterval_decides (v : Variable) (hv : v.kind = .interval) :
    Decides v IsInterval (source v.name) (readInterval source v) := by
  refine ⟨fun hg => ?_, fun s d hg hd => ?_, fun s e hg he => ?_, fun s => ?_⟩
  · unfold readInterval
    rw [readNumber_unset hg]
    rfl
  · obtain ⟨n, hn, hpos, hnanos⟩ := hd
    have hspan : d = .ofMillis n.toNat := by
      rw [Span.mk.injEq, hnanos, nanos_ofMillis]
    rw [hspan]
    exact readInterval_of_pos hg hn hpos
  · unfold readInterval
    cases he with
    | blank kind | large kind => exact nomatch hv.symm.trans kind
    | unread _ none =>
      rw [readNumber_of_none hg none]
      rfl
    | zero _ number =>
      have hzero : readNumber source v = .ok (some (0 : UInt64).toNat) :=
        readNumber_of_standsFor hg number
      rw [hzero]
      rfl
  · by_cases hex : ∃ n : UInt64, StandsFor s n.toNat
    · obtain ⟨n, hn⟩ := hex
      rcases Nat.eq_zero_or_pos n.toNat with hzero | hpos
      · exact .inr ⟨_, .zero hv (hzero ▸ hn)⟩
      · exact .inl ⟨_, n, hn, hpos, nanos_ofMillis n⟩
    · exact .inr ⟨_, .unread (by rw [hv]; decide) (not_exists.mp hex)⟩

/-! ## Reading all variables -/

/-- A variable is not set, or its text means something of its kind. -/
def Valid (source : Source) (v : Variable) : Prop := ∀ s, source v.name = some s → v.kind.Admits s

/-- The first variable that is not valid, and why its text is refused. -/
inductive FirstWrong (source : Source) : List Variable → SettingsError → Prop where
  | here {v vs s e} (given : source v.name = some s) (wrong : Wrong v s e) :
      FirstWrong source (v :: vs) e
  | later {v vs e} (valid : Valid source v) (rest : FirstWrong source vs e) :
      FirstWrong source (v :: vs) e

/-- The value of a field: what the text means, or a default when there is none. -/
inductive Takes (Means : String → α → Prop) (standard : α) : Option String → α → Prop where
  | unset : Takes Means standard none standard
  | set {s a} (means : Means s a) : Takes Means standard (some s) a

/-- **What the variables tell**: each field holds what its variable means, and what is not set has
its default. -/
structure Told (source : Source) (s : Settings) : Prop where
  maxRetries : Takes IsCount (default : Settings).maxRetries (source Variable.maxRetries.name)
    s.maxRetries
  redisUrl : Option.Rel IsText (source Variable.redisUrl.name) s.redisUrl
  queue : Takes IsText (default : Settings).queue (source Variable.queue.name) s.queue
  group : Takes IsText (default : Settings).group (source Variable.group.name) s.group
  consumer : Option.Rel IsText (source Variable.consumer.name) s.consumer
  promoterInterval : Takes IsInterval (default : Settings).promoterInterval
    (source Variable.promoterInterval.name) s.promoterInterval
  schedulerInterval : Takes IsInterval (default : Settings).schedulerInterval
    (source Variable.schedulerInterval.name) s.schedulerInterval

section Fields

variable {Means : String → α → Prop} {standard a : α} {given : Option String}

theorem takes_iff :
    Takes Means standard given a ↔ ∃ o, Option.Rel Means given o ∧ o.getD standard = a := by
  constructor
  · rintro (_ | means)
    · exact ⟨none, .none, rfl⟩
    · exact ⟨some a, .some means, rfl⟩
  · rintro ⟨o, hrel, rfl⟩
    cases hrel with
    | none => exact .unset
    | some means => exact .set means

theorem exists_rel_iff :
    (∃ o, Option.Rel Means given o) ↔ ∀ s, given = some s → ∃ a, Means s a := by
  constructor
  · rintro ⟨o, hrel⟩ s rfl
    cases hrel with
    | some means => exact ⟨_, means⟩
  · intro h
    cases given with
    | none => exact ⟨none, .none⟩
    | some s =>
      obtain ⟨a, means⟩ := h s rfl
      exact ⟨some a, .some means⟩

theorem Takes.valid (h : Takes Means standard given a) :
    ∀ s, given = some s → ∃ a, Means s a := by
  obtain ⟨o, hrel, -⟩ := takes_iff.mp h
  exact exists_rel_iff.mp ⟨o, hrel⟩

theorem exists_takes (standard : α) (h : ∀ s, given = some s → ∃ a, Means s a) :
    ∃ a, Takes Means standard given a := by
  obtain ⟨o, hrel⟩ := exists_rel_iff.mpr h
  exact ⟨_, takes_iff.mpr ⟨o, hrel, rfl⟩⟩

end Fields

theorem firstWrong_cons_iff {vs : List Variable} {e : SettingsError} :
    FirstWrong source (v :: vs) e ↔
      (∃ s, source v.name = some s ∧ Wrong v s e) ∨ Valid source v ∧ FirstWrong source vs e := by
  constructor
  · rintro (⟨given, wrong⟩ | ⟨valid, rest⟩)
    · exact .inl ⟨_, given, wrong⟩
    · exact .inr ⟨valid, rest⟩
  · rintro (⟨s, given, wrong⟩ | ⟨valid, rest⟩)
    · exact .here given wrong
    · exact .later valid rest

theorem read_eq_ok_iff {t : Settings} : read source = .ok t ↔ Told source t := by
  simp only [read, bind_eq_ok_iff, (readCount_decides .maxRetries rfl).ok_iff,
    (readText_decides .redisUrl rfl).ok_iff, (readText_decides .queue rfl).ok_iff,
    (readText_decides .group rfl).ok_iff, (readText_decides .consumer rfl).ok_iff,
    (readInterval_decides .promoterInterval rfl).ok_iff,
    (readInterval_decides .schedulerInterval rfl).ok_iff, pure, Except.pure, Except.ok.injEq]
  constructor
  · rintro ⟨retries, hretries, url, hurl, queue, hqueue, group, hgroup, consumer, hconsumer,
      promoter, hpromoter, scheduler, hscheduler, rfl⟩
    exact {
      maxRetries := takes_iff.mpr ⟨retries, hretries, rfl⟩
      redisUrl := hurl
      queue := takes_iff.mpr ⟨queue, hqueue, rfl⟩
      group := takes_iff.mpr ⟨group, hgroup, rfl⟩
      consumer := hconsumer
      promoterInterval := takes_iff.mpr ⟨promoter, hpromoter, rfl⟩
      schedulerInterval := takes_iff.mpr ⟨scheduler, hscheduler, rfl⟩ }
  · intro h
    obtain ⟨retries, hretries, maxRetries_eq⟩ := takes_iff.mp h.maxRetries
    obtain ⟨queue, hqueue, queue_eq⟩ := takes_iff.mp h.queue
    obtain ⟨group, hgroup, group_eq⟩ := takes_iff.mp h.group
    obtain ⟨promoter, hpromoter, promoter_eq⟩ := takes_iff.mp h.promoterInterval
    obtain ⟨scheduler, hscheduler, scheduler_eq⟩ := takes_iff.mp h.schedulerInterval
    refine ⟨retries, hretries, t.redisUrl, h.redisUrl, queue, hqueue, group, hgroup, t.consumer,
      h.consumer, promoter, hpromoter, scheduler, hscheduler, ?_⟩
    rw [maxRetries_eq, queue_eq, group_eq, promoter_eq, scheduler_eq]

theorem read_eq_error_iff {e : SettingsError} :
    read source = .error e ↔ FirstWrong source Variable.inOrder e := by
  have hnil : ¬ FirstWrong source [] e := nofun
  simp only [read, bind_eq_error_iff, (readCount_decides .maxRetries rfl).ok_iff,
    (readText_decides .redisUrl rfl).ok_iff, (readText_decides .queue rfl).ok_iff,
    (readText_decides .group rfl).ok_iff, (readText_decides .consumer rfl).ok_iff,
    (readInterval_decides .promoterInterval rfl).ok_iff,
    (readInterval_decides .schedulerInterval rfl).ok_iff,
    (readCount_decides .maxRetries rfl).error_iff,
    (readText_decides .redisUrl rfl).error_iff, (readText_decides .queue rfl).error_iff,
    (readText_decides .group rfl).error_iff, (readText_decides .consumer rfl).error_iff,
    (readInterval_decides .promoterInterval rfl).error_iff,
    (readInterval_decides .schedulerInterval rfl).error_iff, exists_and_right,
    Variable.inOrder, firstWrong_cons_iff, hnil, pure, Except.pure, reduceCtorEq, exists_rel_iff]
  -- that a variable can be read says the same as that it is valid
  rfl

/-- Settings are told when every variable is valid. -/
theorem exists_told_iff : (∃ t, Told source t) ↔ ∀ v, Valid source v := by
  constructor
  · rintro ⟨t, h⟩ v
    cases v with
    | maxRetries => exact h.maxRetries.valid
    | redisUrl => exact exists_rel_iff.mp ⟨_, h.redisUrl⟩
    | queue => exact h.queue.valid
    | group => exact h.group.valid
    | consumer => exact exists_rel_iff.mp ⟨_, h.consumer⟩
    | promoterInterval => exact h.promoterInterval.valid
    | schedulerInterval => exact h.schedulerInterval.valid
  · intro valid
    obtain ⟨retries, hretries⟩ := exists_takes (default : Settings).maxRetries (valid .maxRetries)
    obtain ⟨redisUrl, hurl⟩ := exists_rel_iff.mpr (valid .redisUrl)
    obtain ⟨queue, hqueue⟩ := exists_takes (default : Settings).queue (valid .queue)
    obtain ⟨group, hgroup⟩ := exists_takes (default : Settings).group (valid .group)
    obtain ⟨consumer, hconsumer⟩ := exists_rel_iff.mpr (valid .consumer)
    obtain ⟨promoter, hpromoter⟩ :=
      exists_takes (default : Settings).promoterInterval (valid .promoterInterval)
    obtain ⟨scheduler, hscheduler⟩ :=
      exists_takes (default : Settings).schedulerInterval (valid .schedulerInterval)
    exact ⟨⟨redisUrl, queue, group, consumer, retries, promoter, scheduler⟩,
      ⟨hretries, hurl, hqueue, hgroup, hconsumer, hpromoter, hscheduler⟩⟩

theorem exists_read_iff : (∃ t, read source = .ok t) ↔ ∀ v, Valid source v := by
  simp only [read_eq_ok_iff, exists_told_iff]

theorem interval_pos {standard d : Span} {given : Option String}
    (hstandard : 0 < standard.nanos) (h : Takes IsInterval standard given d) : 0 < d.nanos := by
  cases h with
  | unset => exact hstandard
  | set means =>
    obtain ⟨n, -, hpos, hnanos⟩ := means
    rw [hnanos]
    exact Nat.mul_pos hpos (by decide)

theorem Told.promoterInterval_pos {t : Settings} (h : Told source t) :
    0 < t.promoterInterval.nanos :=
  interval_pos (by decide) h.promoterInterval

theorem Told.schedulerInterval_pos {t : Settings} (h : Told source t) :
    0 < t.schedulerInterval.nanos :=
  interval_pos (by decide) h.schedulerInterval

end Settings

/-- A scheduler refuses to start because of its interval when that is zero, and only then. -/
theorem start_eq_invalidInterval_iff {c : Schedule.Config} {l : Engine.Lifecycle} :
    Schedule.start c l = .error .invalidInterval ↔ c.tickInterval.nanos = 0 := by
  have hstart : Except.mapError Schedule.Failure.notStarted l.start ≠ .error .invalidInterval := by
    cases l.start <;> exact nofun
  unfold Schedule.start Span.isZero
  by_cases hzero : c.tickInterval.nanos = 0
  · simp only [hzero, beq_self_eq_true, if_true, iff_true]
    rfl
  · rw [if_neg (mt beq_iff_eq.mp hzero)]
    exact iff_of_false hstart hzero

open Simulation in
theorem schedulerConfig_prepare (s : Settings) (messages : List (Option String × Message))
    (faults : List (String × Fault)) :
    (WorkerProcess.prepare s messages faults).schedulerConfig = ⟨s.schedulerInterval⟩ := by
  unfold WorkerProcess.prepare WorkerProcess.addHeartbeat
  dsimp only
  split <;> rfl

open Settings in
/-- **Settings are vetted.** They are accepted when every variable that is set is valid. -/
structure Vetted (source : Source) : Prop where
  /-- Settings are accepted exactly when every variable is valid. -/
  accepted : (∃ s, read source = .ok s) ↔ ∀ v, Valid source v
  /-- Then each field holds what its text means, or its default. -/
  told : ∀ s, read source = .ok s ↔ Told source s
  positive : ∀ s, read source = .ok s → 0 < s.promoterInterval.nanos ∧ 0 < s.schedulerInterval.nanos
  /-- Else the first variable that is not valid is reported. -/
  refused : ∀ e, read source = .error e ↔ FirstWrong source Variable.inOrder e
  /-- A scheduler with the interval of accepted settings is not refused for it, -/
  starts : ∀ s l, read source = .ok s →
    Schedule.start ⟨s.schedulerInterval⟩ l ≠ .error .invalidInterval
  /-- and such is the scheduler of a worker process. -/
  process : ∀ s messages faults,
    (Simulation.WorkerProcess.prepare s messages faults).schedulerConfig = ⟨s.schedulerInterval⟩

theorem settings_vetted (source : Settings.Source) : Vetted source where
  accepted := Settings.exists_read_iff
  told _ := Settings.read_eq_ok_iff
  positive s h :=
    have told := Settings.read_eq_ok_iff.mp h
    ⟨told.promoterInterval_pos, told.schedulerInterval_pos⟩
  refused _ := Settings.read_eq_error_iff
  starts s l h := by
    have hpos := (Settings.read_eq_ok_iff.mp h).schedulerInterval_pos
    exact mt start_eq_invalidInterval_iff.mp (Nat.ne_of_gt hpos)
  process := schedulerConfig_prepare

/-- Of two variables that are wrong the first is reported, with the number that was read. -/
example : Settings.read (fun name =>
    if name = "TASKFORGE_QUEUE" then some "\t "
    else if name = "TASKFORGE_MAX_RETRIES" then some " +04294967296"
    else none) = .error (.notANumber .maxRetries "4294967296") := by decide

end TaskQueue.Worker
