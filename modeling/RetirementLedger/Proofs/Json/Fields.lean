import RetirementLedger.Json.Fields

namespace RetirementLedger.Json

theorem placeOf_append {done rest : List (String × Json)} {name : String} {value : Json}
    (fresh : name ∉ done.map (·.1)) :
    placeOf name ((done ++ (name, value) :: rest).map fun field => [field.1]) = some done.length := by
  induction done with
  | nil => simp [placeOf, List.findIdx?_cons]
  | cons field done ih =>
      rw [List.map_cons, List.mem_cons, not_or] at fresh
      have others := ih fresh.2
      unfold placeOf at others ⊢
      rw [List.cons_append, List.map_cons, List.findIdx?_cons, others]
      simp [fresh.1]

theorem memberSlots_written (done rest : List (String × Json))
    (distinct : ((done ++ rest).map (·.1)).Nodup) :
    memberSlots ((done ++ rest).map fun field => [field.1])
        (done.map (fun field => .given field.2) ++ rest.map fun _ => .omitted)
        (rest.map fun field => (some field.1, field.2)) =
      some ((done ++ rest).map fun field => .given field.2) := by
  induction rest generalizing done with
  | nil => simp [memberSlots]
  | cons field rest ih =>
      obtain ⟨name, value⟩ := field
      have fresh : name ∉ done.map (·.1) := by
        rw [List.map_append, List.nodup_append] at distinct
        exact fun old => distinct.2.2 name old name (.head _) rfl
      have next := ih (done ++ [(name, value)]) (by simpa using distinct)
      rw [List.append_assoc, List.singleton_append] at next
      have length : (done.map fun field : String × Json => Slot.given field.2).length = done.length :=
        List.length_map ..
      rw [List.map_cons, List.map_cons, memberSlots, placeOf_append fresh]
      simp only [← length, List.getElem?_append_right (Nat.le_refl _), Nat.sub_self,
        List.getElem?_cons_zero, List.set_append_right _ _ (Nat.le_refl _), List.set_cons_zero]
      have slots : (done ++ [(name, value)]).map (fun field => Slot.given field.2) =
          done.map (fun field => Slot.given field.2) ++ [.given value] := by simp
      rw [slots, List.append_assoc] at next
      exact next

theorem slots?_ofFields (fields : List (String × Json)) (distinct : (fields.map (·.1)).Nodup) :
    slots? (fields.map fun field => [field.1]) (ofFields fields) =
      some (fields.map fun field => .given field.2) := by
  rw [ofFields, slots?, List.map_map]
  exact memberSlots_written [] fields distinct

end RetirementLedger.Json
