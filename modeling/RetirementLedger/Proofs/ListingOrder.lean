import RetirementLedger.Proofs.Compliance
import RetirementLedger.Proofs.Monitor.Change
import RetirementLedger.Proofs.System.Whole

namespace RetirementLedger

namespace Service

variable {s t : Service} {id name : String} {f g : Filing}

structure Reordered (s t : Service) : Prop where
  store : t.store = s.store
  clock : t.clock = s.clock
  refuses : t.refuses = s.refuses
  delivered : s.delivered.Perm t.delivered
  auditFailures : t.auditFailures = s.auditFailures

theorem Reordered.sameAbout (same : s.Reordered t) (id : String) : s.SameAbout t id where
  clock := same.clock
  faults := by rw [same.store]
  refuses := same.refuses
  accept := by rw [holdings, same.store]
  kept := by rw [holdings, same.store]
  record := by rw [holdings, same.store]

theorem Reordered.file (same : s.Reordered t) (f : Filing) : (s.file f).Reordered (t.file f) where
  store := by simp only [Service.file, holdings, same.store]
  clock := same.clock
  refuses := same.refuses
  delivered := same.delivered.append_right _
  auditFailures := congrArg (· + _) same.auditFailures

theorem file_comm (s : Service) (about : ∀ r ∈ f.stored, r.agreementId = id)
    (about' : ∀ r ∈ g.stored, r.agreementId = name) (other : id ≠ name) :
    ((s.file f).file g).Reordered ((s.file g).file f) where
  store := by
    have distinct : ((g.stored.toList ++ f.stored.toList).map (·.agreementId)).Nodup := by
      cases filed : f.stored with
      | none => cases g.stored <;> simp
      | some r =>
          cases filed' : g.stored with
          | none => simp
          | some r' => simp [about r filed, about' r' filed', other.symm]
    simp only [file]
    rw [Store.fill_comm _ distinct]
  clock := rfl
  refuses := rfl
  delivered := by
    simp only [file, List.append_assoc]
    exact List.perm_append_comm.append_left _
  auditFailures := Nat.add_right_comm _ _ _

end Service

namespace Scan

variable {sc sc' : Scan} {a b : Agreement} {id name : String} {c d : Change}

structure Reordered (sc sc' : Scan) : Prop where
  monitor : sc'.monitor = sc.monitor
  service : sc.service.Reordered sc'.service
  report : sc'.report = sc.report
  stopped : sc'.stopped = sc.stopped
  listedIds : sc.listedIds.Perm sc'.listedIds
  pending : sc.pending.Perm sc'.pending

theorem Reordered.refl (sc : Scan) : sc.Reordered sc :=
  ⟨rfl, ⟨rfl, rfl, rfl, .refl _, rfl⟩, rfl, rfl, .refl _, .refl _⟩

theorem Reordered.trans {sc'' : Scan} (first : sc.Reordered sc') (second : sc'.Reordered sc'') :
    sc.Reordered sc'' where
  monitor := second.monitor.trans first.monitor
  service :=
    { store := second.service.store.trans first.service.store
      clock := second.service.clock.trans first.service.clock
      refuses := second.service.refuses.trans first.service.refuses
      delivered := first.service.delivered.trans second.service.delivered
      auditFailures := second.service.auditFailures.trans first.service.auditFailures }
  report := second.report.trans first.report
  stopped := second.stopped.trans first.stopped
  listedIds := first.listedIds.trans second.listedIds
  pending := first.pending.trans second.pending

theorem Reordered.sameAbout (same : sc.Reordered sc') (id : String) : sc.SameAbout sc' id where
  config := by rw [same.monitor]
  entry := by rw [same.monitor]
  service := same.service.sameAbout id

theorem Reordered.amend (same : sc.Reordered sc') (id : String) (c : Change) :
    (sc.amend id c).Reordered (sc'.amend id c) where
  monitor := by simp only [Scan.amend, same.monitor]
  service := same.service.file _
  report := congrArg (ScanReport.plus · c.counts) same.report
  stopped := same.stopped
  listedIds := same.listedIds.cons _
  pending := same.pending.append_right _

theorem sameAbout_amend (about : ∀ r ∈ c.filing.stored, r.agreementId = name) (other : id ≠ name) :
    sc.SameAbout (sc.amend name c) id where
  config := rfl
  entry := by
    simp only [amend]
    rw [Catalog.find?_put, if_neg other]
  service := Service.sameAbout_file fun r member same => other (same.symm.trans (about r member))

theorem amend_comm (about : ∀ r ∈ c.filing.stored, r.agreementId = id)
    (about' : ∀ r ∈ d.filing.stored, r.agreementId = name) (other : id ≠ name) :
    ((sc.amend id c).amend name d).Reordered ((sc.amend name d).amend id c) where
  monitor := by
    simp only [amend]
    rw [Catalog.put_comm _ other.symm]
  service := sc.service.file_comm about about' other
  report := ScanReport.plus_comm _ _ _
  stopped := rfl
  listedIds := .swap _ _ _
  pending := by
    simp only [amend, List.append_assoc]
    exact List.perm_append_comm.append_left _

/-- The store is sound, and nothing tells the scan to stop before or while it visits these agreements. -/
structure IsFree (sc : Scan) (agreements : List Agreement) : Prop where
  sound : sc.service.holdings.Sound
  going : sc.stopped = false
  uncancelled : ∀ a ∈ agreements, sc.service.store.faults.cancel a.agreementId = false

variable {agreements others rest : List Agreement}

theorem IsFree.reordered (free : sc.IsFree agreements) (same : sc.Reordered sc') :
    sc'.IsFree agreements where
  sound := by
    rw [Service.holdings, same.service.store]
    exact free.sound
  going := same.stopped.trans free.going
  uncancelled := by
    rw [same.service.store]
    exact free.uncancelled

theorem IsFree.of_perm (free : sc.IsFree agreements) (perm : agreements.Perm others) :
    sc.IsFree others :=
  ⟨free.sound, free.going, fun a member => free.uncancelled a (perm.mem_iff.mpr member)⟩

theorem IsFree.exists_visit (free : sc.IsFree (a :: rest)) :
    ∃ c, sc.Changes a c ∧ sc.visit a = sc.amend a.agreementId c := by
  obtain ⟨c, changes⟩ := sc.exists_changes a (free.uncancelled a List.mem_cons_self)
  exact ⟨c, changes, changes.2 sc ((Reordered.refl sc).sameAbout _) free.sound⟩

theorem IsFree.visit (free : sc.IsFree (a :: rest)) : (sc.visit a).IsFree rest := by
  have kept := (sc.visited a).kept free.sound
  obtain ⟨c, -, visit⟩ := free.exists_visit
  refine ⟨kept.sound, ?_, fun b member => ?_⟩
  · rw [visit]
    exact free.going
  · rw [kept.faults]
    exact free.uncancelled b (List.mem_cons_of_mem a member)

theorem IsFree.visitAll_eq (free : sc.IsFree agreements) (place : Nat) :
    sc.visitAll (fun _ => false) place agreements = agreements.foldl Scan.visit sc := by
  induction agreements generalizing sc place with
  | nil => rfl
  | cons a rest ih =>
      have next : sc.after a false = sc.visit a := by simp [after]
      rw [visitAll_going _ free.going, next, ih free.visit, List.foldl_cons]

theorem foldl_visit_cancelled (sc : Scan) (agreements : List Agreement) :
    (agreements.foldl Scan.visit sc).report.cancelled = sc.report.cancelled := by
  induction agreements generalizing sc with
  | nil => rfl
  | cons a rest ih => exact (ih (sc.visit a)).trans (sc.visited a).report.2

theorem Reordered.visit (same : sc.Reordered sc') (free : sc.IsFree (a :: rest)) :
    (sc.visit a).Reordered (sc'.visit a) := by
  obtain ⟨c, changes, visit⟩ := free.exists_visit
  rw [visit, changes.2 sc' (same.sameAbout _) (free.reordered same).sound]
  exact same.amend _ c

theorem Reordered.foldl_visit (same : sc.Reordered sc') (free : sc.IsFree agreements) :
    (agreements.foldl Scan.visit sc).Reordered (agreements.foldl Scan.visit sc') := by
  induction agreements generalizing sc sc' with
  | nil => exact same
  | cons a rest ih => exact ih (same.visit free) free.visit

theorem visit_comm (free : sc.IsFree (a :: b :: rest)) (other : a.agreementId ≠ b.agreementId) :
    ((sc.visit a).visit b).Reordered ((sc.visit b).visit a) := by
  -- The first visit leaves alone what the second one looks at, so both make the change they would make first.
  have free' : sc.IsFree (b :: a :: rest) := free.of_perm (.swap b a rest)
  obtain ⟨c, ⟨about, changes⟩, visit⟩ := free.exists_visit
  obtain ⟨d, ⟨about', changes'⟩, visit'⟩ := free'.exists_visit
  have later : (sc.visit a).visit b = (sc.amend a.agreementId c).amend b.agreementId d := by
    rw [← visit]
    refine changes' _ ?_ free.visit.sound
    rw [visit]
    exact sameAbout_amend about other.symm
  have later' : (sc.visit b).visit a = (sc.amend b.agreementId d).amend a.agreementId c := by
    rw [← visit']
    refine changes _ ?_ free'.visit.sound
    rw [visit']
    exact sameAbout_amend about' other
  rw [later, later']
  exact amend_comm about about' other

theorem foldl_visit_of_perm (perm : agreements.Perm others)
    (distinct : (agreements.map (·.agreementId)).Nodup) (free : sc.IsFree agreements) :
    (agreements.foldl Scan.visit sc).Reordered (others.foldl Scan.visit sc) := by
  induction perm generalizing sc with
  | nil => exact .refl sc
  | cons a perm ih => exact ih (List.nodup_cons.mp distinct).2 free.visit
  | swap a b rest =>
      have other : b.agreementId ≠ a.agreementId := by
        rintro same
        simp [same] at distinct
      exact (visit_comm free other).foldl_visit free.visit.visit
  | trans perm _ ih ih' =>
      exact (ih distinct free).trans (ih' ((perm.map _).nodup_iff.mp distinct) (free.of_perm perm))

theorem Reordered.prune_close (same : sc.Reordered sc') :
    sc'.prune.close.monitor = sc.prune.close.monitor ∧
      sc'.prune.close.report = sc.prune.close.report := by
  have contains : sc'.listedIds.contains = sc.listedIds.contains := by
    funext id
    exact (same.listedIds.contains_eq).symm
  cases cancelled : sc.report.cancelled <;>
    simp [prune, close, mapWatch, mapReport, same.monitor, same.report, same.service.clock, contains,
      cancelled]

end Scan

namespace System

variable {s : System} {agreements others : List Agreement}

theorem scan_of_perm (reachable : s.Reachable) (perm : agreements.Perm others)
    (distinct : (agreements.map (·.agreementId)).Nodup)
    (uncancelled : ∀ a ∈ agreements, s.service.store.faults.cancel a.agreementId = false) :
    let scan := s.monitor.scan s.service (.listed agreements) {}
    let other := s.monitor.scan s.service (.listed others) {}
    scan.outcome = other.outcome ∧ scan.monitor = other.monitor ∧
      scan.service.store = other.service.store ∧
      scan.service.auditFailures = other.service.auditFailures ∧
      scan.service.delivered.Perm other.service.delivered ∧ scan.pending.Perm other.pending ∧
      (s.monitor.busy = false →
        ∃ report, scan.outcome = .ok (.completed report) ∧ report.cancelled = false) ∧
      ∃ acts otherActs, s.ScansAtOnce (.listed agreements) {} acts ∧
        s.ScansAtOnce (.listed others) {} otherActs ∧
        (s.run acts).store = (s.run otherActs).store ∧
        (s.run acts).monitor = (s.run otherActs).monitor ∧
        (s.run acts).outcomes = (s.run otherActs).outcomes := by
  intro scan other
  cases busy : s.monitor.busy with
  | true =>
      have skipped (listing : List Agreement) := Monitor.scan_busy s.service busy (.listed listing) {}
      have same : scan = other := (skipped agreements).trans (skipped others).symm
      have runs := s.exists_runs_of_scans (congrArg (·.outcome) same) (congrArg (·.monitor) same)
        (congrArg (·.service.store) same)
      rw [same]
      exact ⟨rfl, rfl, rfl, rfl, .refl _, .refl _, by simp, runs⟩
  | false =>
      have free : (Scan.start s.monitor s.service agreements.length false).IsFree agreements :=
        ⟨reachable.recorded.sound, rfl, uncancelled⟩
      have scanned : scan = _ := Monitor.scan_listed s.service busy rfl {}
      have scanned' : other = _ := Monitor.scan_listed s.service busy rfl {}
      rw [← perm.length_eq] at scanned'
      dsimp only at scanned scanned'
      rw [free.visitAll_eq] at scanned
      rw [(free.of_perm perm).visitAll_eq] at scanned'
      have same := Scan.foldl_visit_of_perm perm distinct free
      obtain ⟨monitor, report⟩ := same.prune_close
      have outcome : scan.outcome = other.outcome := by rw [scanned, scanned', report]
      have table : scan.monitor = other.monitor := by rw [scanned, scanned', monitor]
      have stored : scan.service.store = other.service.store := by
        rw [scanned, scanned', same.service.store]
      have runs := s.exists_runs_of_scans outcome table stored
      rw [scanned, scanned']
      refine ⟨by rw [report], monitor.symm, same.service.store.symm, same.service.auditFailures.symm,
        same.service.delivered, same.pending, fun _ => ⟨_, rfl, ?_⟩, runs⟩
      rw [(Scan.prune_close_frame _).2.2.2, Scan.foldl_visit_cancelled]
      rfl

theorem scan_of_perm_reversed :
    let calm (id : String) : Agreement := ⟨id, .finalized, []⟩
    let violating (id : String) : Agreement := ⟨id, .unknown, [⟨"c-1", none, none⟩]⟩
    let advance (place : Nat) : Act := .traffic (.advance place)
    let s := (setUp (.database .fresh) .epoch).run
      [.enter, .list (.listed [calm "a-7", calm "a-8"]), .proceed, .proceed, .proceed,
        .traffic (.ask "a-3" ReasonCode.manualReason "admin"), advance 0, advance 0, advance 0,
        .traffic (.setFaults { crash := (· == "a-1"), stall := (· == "a-2") }),
        .traffic (.setRefusals (· == "a-4"))]
    let agreements :=
      [violating "a-1", violating "a-2", violating "a-3", violating "a-4", violating "a-5", violating "a-6",
        ⟨"a-7", .terminated, []⟩]
    let scan := s.monitor.scan s.service (.listed agreements) {}
    let other := s.monitor.scan s.service (.listed agreements.reverse) {}
    let report : ScanReport :=
      { startedAt := some .epoch, finishedAt := some .epoch, listed := 7, evaluated := 6, violations := 6,
        retired := 3, alreadyRetired := 1, failures := 2, removed := 2 }
    s.Reachable ∧ other.monitor.lastReport = some report ∧ scan.monitor = other.monitor ∧
      scan.service.delivered.map (·.agreementId) = ["a-3", "a-5", "a-6"] ∧
      other.service.delivered.map (·.agreementId) = ["a-3", "a-6", "a-5"] ∧
      scan.service.delivered.Perm other.service.delivered := by
  intro calm violating advance s agreements scan other report
  have reachable : s.Reachable := (isInitial_setUp (.inr rfl) .epoch).reachable.run _
  obtain ⟨-, monitor, -, -, delivered, -⟩ := scan_of_perm reachable agreements.reverse_perm.symm (by decide)
    (fun a _ => rfl)
  exact ⟨reachable, by decide, monitor, by decide, by decide, delivered⟩

end System

end RetirementLedger
