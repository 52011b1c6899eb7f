import RetirementLedger.Proofs.Traffic.Moves

namespace RetirementLedger

namespace Store

theorem Insertion.creation {s after : Store} {r : Retirement} {receipt : Receipt}
    (insertion : Insertion s r (.ok receipt) after) (byService : Bool) (id : String) :
    (after.record? id).toList =
      (s.record? id).toList ++ ((Event.inserted byService receipt).creation? id).toList := by
  cases insertion with
  | known accepted held => simp [Event.creation?]
  | made accepted free kept content kind =>
      have about := (kept_spec kept).1
      by_cases same : id = r.agreementId
      · subst same
        simp [content, free, Event.creation?, about]
      · have other : r.agreementId ≠ id := Ne.symm same
        simp [content, Event.creation?, about, same, other]

end Store

namespace Traffic
open Relation

structure Recorded (t : Traffic) : Prop where
  sound : t.store.Sound
  created : ∀ id, t.created id = (t.store.record? id).toList
  events : ∀ event ∈ t.log, t.store.Holds event.subject
  calls : ∀ call ∈ t.calls, ∀ receipt, call.receipt? = some receipt → t.store.Holds receipt.record

variable {t u : Traffic}

theorem IsInitial.recorded (initial : t.IsInitial) : t.Recorded where
  sound := initial.sound
  created id := by
    have nothing : t.store.record? id = none := by
      rcases initial.empty with store | store <;> rw [store] <;> rfl
    simp [Traffic.created, initial.noLog, nothing]
  events event member := by simp [initial.noLog] at member
  calls call member := by simp [initial.noCalls] at member

theorem created_append (t : Traffic) (service : Service) (calls : List RetireCall) (event : Event)
    (id : String) :
    created ⟨service, calls, t.log ++ [event]⟩ id = t.created id ++ (event.creation? id).toList := by
  cases creation : event.creation? id <;> simp [created, creation]

theorem holds_of_mem_set {s : Store} {calls : List RetireCall} {place : Nat} {call : RetireCall}
    (others : ∀ call ∈ calls, ∀ receipt, call.receipt? = some receipt → s.Holds receipt.record)
    (this : ∀ receipt, call.receipt? = some receipt → s.Holds receipt.record) :
    ∀ other ∈ calls.set place call, ∀ receipt, other.receipt? = some receipt →
      s.Holds receipt.record := by
  intro other member
  rcases List.mem_or_eq_of_mem_set member with old | rfl
  · exact others other old
  · exact this

theorem Recorded.move (recorded : t.Recorded) (move : Move t u) : u.Recorded := by
  have sound := move.sound recorded.sound
  have events (event : Event) (member : event ∈ t.log) : u.store.Holds event.subject :=
    move.keeps (recorded.events event member)
  have calls (call : RetireCall) (member : call ∈ t.calls) (receipt : Receipt)
      (answer : call.receipt? = some receipt) : u.store.Holds receipt.record :=
    move.keeps (recorded.calls call member receipt answer)
  cases move with
  | adjust service holdings delivered failures =>
      refine ⟨sound, fun id => ?_, events, calls⟩
      change t.created id = (service.holdings.record? id).toList
      rw [holdings, recorded.created id]
  | begin =>
      refine ⟨sound, recorded.created, events, ?_⟩
      intro call member receipt answer
      rcases List.mem_append.mp member with old | new
      · exact calls call old receipt answer
      · cases List.mem_singleton.mp new
        cases answer
  | @insert r receipt after insertion sound' =>
      refine ⟨sound, fun id => ?_, ?_, calls⟩
      · rw [created_append, recorded.created id]
        exact (insertion.creation false id).symm
      · intro event member
        rcases List.mem_append.mp member with old | new
        · exact events event old
        · cases List.mem_singleton.mp new
          exact insertion.holds recorded.sound
  | check call =>
      refine ⟨sound, recorded.created, events, holds_of_mem_set calls fun _ answer => ?_⟩
      cases answer
  | @fail place old reply call unstored failure =>
      refine ⟨sound, recorded.created, events, holds_of_mem_set calls fun receipt answer => ?_⟩
      change reply.receipt? = some receipt at answer
      rw [failure] at answer
      cases answer
  | @answer place r receipt after call insertion sound' =>
      have held := insertion.holds recorded.sound
      refine ⟨sound, fun id => ?_, ?_, holds_of_mem_set calls fun other answer => ?_⟩
      · rw [created_append, recorded.created id]
        exact (insertion.creation true id).symm
      · intro event member
        rcases List.mem_append.mp member with old | new
        · exact events event old
        · cases List.mem_singleton.mp new
          exact held
      · split at answer <;> cases answer <;> exact held
  | @announce place receipt call =>
      have stored : t.store.Holds receipt.record :=
        recorded.calls _ (List.mem_of_getElem? call) receipt rfl
      have held : (t.service.announce receipt.record).holdings.Holds receipt.record := by
        rwa [Service.holdings_announce]
      refine ⟨sound, fun id => ?_, ?_, holds_of_mem_set calls fun other answer => ?_⟩
      · rw [created_append, recorded.created id]
        simp [Event.creation?, store]
      · intro event member
        rcases List.mem_append.mp member with old | new
        · exact events event old
        · cases List.mem_singleton.mp new
          exact held
      · cases answer
        exact held

theorem Recorded.moves (recorded : t.Recorded) (moves : ReflTransGen Move t u) : u.Recorded :=
  moves_preserve moves recorded Recorded.move

end Traffic

end RetirementLedger
