import RetirementLedger.Proofs.Store

namespace RetirementLedger

theorem Retirement.validate_eq_ok {r : Retirement} (reason : Text.isBlankText r.reason = false)
    (actor : Text.isBlankText r.retiredBy = false) :
    r.validate = .ok () ↔
      Text.isBlankText r.agreementId = false ∧ Text.trim r.agreementId = r.agreementId := by
  unfold validate
  by_cases unpadded : Text.trim r.agreementId = r.agreementId
  · cases Text.isBlankText r.agreementId <;> simp [unpadded, reason, actor]
  · cases Text.isBlankText r.agreementId <;> simp [unpadded]

theorem Retirement.reason_not_blank_of_validate {r : Retirement} (valid : r.validate = .ok ()) :
    Text.isBlankText r.reason = false := by
  cases blank : Text.isBlankText r.reason with
  | false => rfl
  | true =>
      unfold validate at valid
      split at valid
      · cases valid
      · split at valid
        · cases valid
        · simp at valid

theorem SqlValue.isEmpty_untilNul {s : String} (shown : Text.isBlankText s = false) :
    (untilNul s).isEmpty = false ↔ s.toList.head? ≠ some '\x00' := by
  unfold untilNul
  unfold Text.isBlankText at shown
  cases chars : s.toList with
  | nil => simp [chars] at shown
  | cons c cs => by_cases nul : c = '\x00' <;> simp [nul]

theorem Database.checkRow_eq_ok {agreementId : String} {row : Row} :
    checkRow agreementId row = .ok () ↔
      (SqlValue.untilNul agreementId).isEmpty = false ∧
        (SqlValue.untilNul row.reason).isEmpty = false := by
  unfold checkRow
  dsimp only
  split
  · next empty => simp [empty]
  · next begun =>
      split
      · next empty => simp [empty]
      · next begun' => simp [begun, begun']

theorem Database.checkRow_of_validate {r : Retirement} (valid : r.validate = .ok ())
    (id : '\x00' ∉ r.agreementId.toList) (reason : '\x00' ∉ r.reason.toList) :
    checkRow r.agreementId (.ofRetirement r) = .ok () := by
  have begun {s : String} (unbroken : '\x00' ∉ s.toList) : s.toList.head? ≠ some '\x00' :=
    fun nul => unbroken (List.mem_of_mem_head? nul)
  refine checkRow_eq_ok.mpr ⟨?_, ?_⟩
  · exact (SqlValue.isEmpty_untilNul (Retirement.not_blank_of_validate valid)).mpr (begun id)
  · exact (SqlValue.isEmpty_untilNul (Retirement.reason_not_blank_of_validate valid)).mpr
      (begun reason)

namespace Store

variable {s after : Store} {r : Retirement} {reply : Except Failure Receipt}

def Takes (s : Store) (r : Retirement) : Prop :=
  s.accept r = .ok () ∧ ∃ stored, s.kept r = .ok stored

theorem Insertion.isSome_iff (insertion : Insertion s r reply after) (id : String) :
    (after.record? id).isSome = true ↔
      (s.record? id).isSome = true ∨ id = r.agreementId ∧ s.Takes r := by
  cases insertion with
  | refused refusal =>
      refine ⟨.inl, ?_⟩
      rintro (held | ⟨rfl, accepted, -⟩)
      · exact held
      · rw [refusal] at accepted
        cases accepted
  | known accepted held =>
      refine ⟨.inl, ?_⟩
      rintro (held | ⟨rfl, -⟩)
      · exact held
      · exact Option.isSome_iff_exists.mpr ⟨_, held⟩
  | unkept accepted free loss =>
      refine ⟨.inl, ?_⟩
      rintro (held | ⟨rfl, -, stored, kept⟩)
      · exact held
      · rw [loss] at kept
        cases kept
  | made accepted free kept content kind =>
      rw [content]
      by_cases same : id = r.agreementId
      · rw [if_pos same]
        exact ⟨fun _ => .inr ⟨same, accepted, _, kept⟩, fun _ => rfl⟩
      · rw [if_neg same]
        exact ⟨.inl, fun held => held.resolve_right fun taken => same taken.1⟩

/-- A retirement of the agreement can be filed at the instant, its reason and its actor being in
order. -/
structure CanFile (s : Store) (agreementId : String) (now : Instant) : Prop where
  shown : Text.isBlankText agreementId = false
  unpadded : Text.trim agreementId = agreementId
  begun : s.isDatabase = true → agreementId.toList.head? ≠ some '\x00'
  dated : s.isDatabase = true →
    (Instant.ofUnixMillis? now.truncateToMillis.unixMillis).isSome = true

theorem CanFile.congr {t : Store} (kind : s.isDatabase = t.isDatabase) {agreementId : String}
    {now : Instant} : s.CanFile agreementId now ↔ t.CanFile agreementId now := by
  constructor
  · rintro ⟨shown, unpadded, begun, dated⟩
    exact ⟨shown, unpadded, kind ▸ begun, kind ▸ dated⟩
  · rintro ⟨shown, unpadded, begun, dated⟩
    exact ⟨shown, unpadded, kind ▸ begun, kind ▸ dated⟩

theorem accept_database {db : Database} :
    (database db).accept r = .ok () ↔
      r.validate = .ok () ∧ Database.checkRow r.agreementId (.ofRetirement r) = .ok () := by
  unfold accept
  cases r.validate with
  | error f => simp [bind, Except.bind]
  | ok u => simp [bind, Except.bind]

theorem exists_kept_create {db : Database} {agreementId reason actor : String} {now : Instant} :
    (∃ stored, (database db).kept (.create agreementId reason actor now) = .ok stored) ↔
      (Instant.ofUnixMillis? now.truncateToMillis.unixMillis).isSome = true := by
  have millis : (Row.ofRetirement (.create agreementId reason actor now)).retiredAtMillis =
      now.truncateToMillis.unixMillis := rfl
  unfold kept
  simp only [Row.toRetirement, millis]
  cases Instant.ofUnixMillis? now.truncateToMillis.unixMillis <;> simp

theorem takes_create_iff (s : Store) {reason actor : String} (given : Text.isBlankText reason = false)
    (begun : reason.toList.head? ≠ some '\x00') (signed : Text.isBlankText actor = false)
    (agreementId : String) (now : Instant) :
    s.Takes (.create agreementId reason actor now) ↔ s.CanFile agreementId now := by
  have valid : (Retirement.create agreementId reason actor now).validate = .ok () ↔
      Text.isBlankText agreementId = false ∧ Text.trim agreementId = agreementId :=
    Retirement.validate_eq_ok given signed
  cases s with
  | memory ledger =>
      constructor
      · rintro ⟨accepted, -⟩
        obtain ⟨shown, unpadded⟩ := valid.mp accepted
        exact ⟨shown, unpadded, (by intro other; cases other), (by intro other; cases other)⟩
      · rintro ⟨shown, unpadded, -, -⟩
        exact ⟨valid.mpr ⟨shown, unpadded⟩, _, rfl⟩
  | database db =>
      constructor
      · rintro ⟨accepted, kept⟩
        obtain ⟨checked, row⟩ := accept_database.mp accepted
        obtain ⟨shown, unpadded⟩ := valid.mp checked
        have begun := (Database.checkRow_eq_ok.mp row).1
        exact ⟨shown, unpadded, fun _ => (SqlValue.isEmpty_untilNul shown).mp begun,
          fun _ => exists_kept_create.mp kept⟩
      · rintro ⟨shown, unpadded, begun', dated⟩
        have row : Database.checkRow agreementId
            (.ofRetirement (.create agreementId reason actor now)) = .ok () :=
          Database.checkRow_eq_ok.mpr ⟨(SqlValue.isEmpty_untilNul shown).mpr (begun' rfl),
            (SqlValue.isEmpty_untilNul given).mpr begun⟩
        exact ⟨accept_database.mpr ⟨valid.mpr ⟨shown, unpadded⟩, row⟩,
          exists_kept_create.mpr (dated rfl)⟩

end Store

end RetirementLedger
