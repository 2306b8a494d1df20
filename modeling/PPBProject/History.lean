import PPBProject.Events

/- What the log tells about requests, operations and groups. Every statement about a
   run counts entries of these lists, or relates an entry to the ones before it. -/
namespace PPB

/-- Entries that record what became of requests, operations and groups. -/
def Output.isRecord : Output → Bool
  | .datagramSent .. | .stateChanged .. | .busyChanged _ | .errorOccurred _
  | .sentPacketsSaved _ => false
  | _ => true

/-- The records of a run, in order. -/
def Engine.history (s : Engine) : List Output := s.log.filter Output.isRecord

/-- Where and for which accepted request an operation runs. -/
def Operation.place (op : Operation) : UInt16 × Origin := (op.address, op.origin)

namespace Output

def startedOp : Output → Option Operation
  | started op _ => some op
  | _ => none

def completedOp : Output → Option Operation
  | commandCompleted op _ _ => some op
  | _ => none

def succeededPlace : Output → Option (UInt16 × Origin)
  | commandCompleted op true _ => some op.place
  | _ => none

def acceptedPlace : Output → Option (UInt16 × Origin)
  | accepted address origin _ => some (address, origin)
  | _ => none

/-- Which request an entry records the acceptance of. -/
def acceptedOrigin? : Output → Option Origin
  | accepted _ origin _ => some origin
  | groupAccepted groupId _ _ => some (.group groupId)
  | _ => none

def clearedPlaces : Output → Option (List (UInt16 × Origin))
  | cleared address origins => some (origins.map (address, ·))
  | _ => none

def acceptedGroup : Output → Option (Nat × UInt16)
  | groupAccepted groupId mask _ => some (groupId, mask)
  | _ => none

def finishedGroup : Output → Option Nat
  | groupCommandCompleted groupId _ _ => some groupId
  | _ => none

end Output

/-- The operations started, in order. -/
def starts (h : List Output) : List Operation := h.filterMap Output.startedOp

/-- The operations reported by `commandCompleted`, in order. -/
def completions (h : List Output) : List Operation := h.filterMap Output.completedOp

/-- Where and for whom an operation was reported with success. -/
def successes (h : List Output) : List (UInt16 × Origin) := h.filterMap Output.succeededPlace

/-- The single commands accepted, in order. -/
def accepted (h : List Output) : List (UInt16 × Origin) := h.filterMap Output.acceptedPlace

/-- The single commands removed by `clearCommandQueue`, in order. -/
def removed (h : List Output) : List (UInt16 × Origin) :=
  (h.filterMap Output.clearedPlaces).flatten

/-- The groups accepted, with their masks, in order. -/
def acceptedGroups (h : List Output) : List (Nat × UInt16) := h.filterMap Output.acceptedGroup

/-- The groups reported by `groupCommandCompleted`, in order. -/
def finishedGroups (h : List Output) : List Nat := h.filterMap Output.finishedGroup

section
variable (h h' : List Output) (o : Output)

theorem filterMap_cons_toList {β : Type} (f : Output → Option β) :
    (o :: h).filterMap f = (f o).toList ++ h.filterMap f := by
  cases ho : f o <;> simp [ho]

@[simp] theorem starts_nil : starts [] = [] := rfl

@[simp] theorem starts_cons : starts (o :: h) = o.startedOp.toList ++ starts h :=
  filterMap_cons_toList ..

@[simp] theorem starts_append : starts (h ++ h') = starts h ++ starts h' :=
  List.filterMap_append

@[simp] theorem completions_nil : completions [] = [] := rfl

@[simp] theorem completions_cons : completions (o :: h) = o.completedOp.toList ++ completions h :=
  filterMap_cons_toList ..

@[simp] theorem completions_append : completions (h ++ h') = completions h ++ completions h' :=
  List.filterMap_append

@[simp] theorem successes_nil : successes [] = [] := rfl

@[simp] theorem successes_cons : successes (o :: h) = o.succeededPlace.toList ++ successes h :=
  filterMap_cons_toList ..

@[simp] theorem successes_append : successes (h ++ h') = successes h ++ successes h' :=
  List.filterMap_append

@[simp] theorem accepted_nil : accepted [] = [] := rfl

@[simp] theorem accepted_cons : accepted (o :: h) = o.acceptedPlace.toList ++ accepted h :=
  filterMap_cons_toList ..

@[simp] theorem accepted_append : accepted (h ++ h') = accepted h ++ accepted h' :=
  List.filterMap_append

@[simp] theorem removed_nil : removed [] = [] := rfl

@[simp] theorem removed_cons : removed (o :: h) = o.clearedPlaces.getD [] ++ removed h := by
  cases ho : o.clearedPlaces <;> simp [removed, ho]

@[simp] theorem removed_append : removed (h ++ h') = removed h ++ removed h' := by
  simp [removed]

@[simp] theorem acceptedGroups_nil : acceptedGroups [] = [] := rfl

@[simp] theorem acceptedGroups_cons :
    acceptedGroups (o :: h) = o.acceptedGroup.toList ++ acceptedGroups h :=
  filterMap_cons_toList ..

@[simp] theorem acceptedGroups_append :
    acceptedGroups (h ++ h') = acceptedGroups h ++ acceptedGroups h' :=
  List.filterMap_append

@[simp] theorem finishedGroups_nil : finishedGroups [] = [] := rfl

@[simp] theorem finishedGroups_cons :
    finishedGroups (o :: h) = o.finishedGroup.toList ++ finishedGroups h :=
  filterMap_cons_toList ..

@[simp] theorem finishedGroups_append :
    finishedGroups (h ++ h') = finishedGroups h ++ finishedGroups h' :=
  List.filterMap_append

end

/-! The starts of the members of a group. -/

section
variable {α : Type} (members : List α) (f : α → Operation) (behindGroups : Bool)

@[simp] theorem starts_map_started :
    starts (members.map fun member => .started (f member) behindGroups) = members.map f := by
  simp [starts, List.filterMap_map, Function.comp_def, Output.startedOp]

theorem filterMap_map_started {β : Type} (g : Output → Option β)
    (hg : ∀ op, g (.started op behindGroups) = none) :
    (members.map fun member => .started (f member) behindGroups).filterMap g = [] := by
  simp [List.filterMap_map, hg]

@[simp] theorem completions_map_started :
    completions (members.map fun member => .started (f member) behindGroups) = [] :=
  filterMap_map_started _ _ _ _ fun _ => rfl

@[simp] theorem successes_map_started :
    successes (members.map fun member => .started (f member) behindGroups) = [] :=
  filterMap_map_started _ _ _ _ fun _ => rfl

@[simp] theorem acceptedGroups_map_started :
    acceptedGroups (members.map fun member => .started (f member) behindGroups) = [] :=
  filterMap_map_started _ _ _ _ fun _ => rfl

@[simp] theorem finishedGroups_map_started :
    finishedGroups (members.map fun member => .started (f member) behindGroups) = [] :=
  filterMap_map_started _ _ _ _ fun _ => rfl

end

/-! The signals of a completion. -/

namespace Engine

section
variable (op : Operation) (c : PPBContext) (success : Bool) (message : String)

/-- The report of an operation is its `commandCompleted`, then signals that carry its data. -/
theorem reportOf_eq_cons : ∃ data, reportOf op c success message =
    .commandCompleted op success (finalMessage c message) :: data ∧
      ∀ o ∈ data, (∃ parsed, o = .commandDataParsed op parsed) ∨
        ∃ mask packets, o = .statusReceived op mask packets := by
  refine ⟨_, rfl, fun o ho => ?_⟩
  rcases List.mem_append.mp ho with ho | ho
  · simp only [Option.mem_toList, Option.map_eq_some_iff] at ho
    obtain ⟨parsed, -, rfl⟩ := ho
    exact .inl ⟨parsed, rfl⟩
  · split at ho
    · exact .inr ⟨_, _, List.mem_singleton.mp ho⟩
    · simp at ho

theorem isRecord_of_mem_reportOf {o : Output} (h : o ∈ reportOf op c success message) :
    o.isRecord = true := by
  obtain ⟨data, hreport, hdata⟩ := reportOf_eq_cons op c success message
  rw [hreport] at h
  rcases List.mem_cons.mp h with rfl | h
  · rfl
  · rcases hdata o h with ⟨parsed, rfl⟩ | ⟨mask, packets, rfl⟩ <;> rfl

/-- What does not look at the data signals sees of a report the `commandCompleted` only. -/
theorem filterMap_reportOf {β : Type} (f : Output → Option β)
    (hparsed : ∀ parsed, f (.commandDataParsed op parsed) = none)
    (hstatus : ∀ mask packets, f (.statusReceived op mask packets) = none) :
    (reportOf op c success message).filterMap f =
      (f (.commandCompleted op success (finalMessage c message))).toList := by
  obtain ⟨data, hreport, hdata⟩ := reportOf_eq_cons op c success message
  have hnone : data.filterMap f = [] := by
    refine List.filterMap_eq_nil_iff.mpr fun o ho => ?_
    rcases hdata o ho with ⟨parsed, rfl⟩ | ⟨mask, packets, rfl⟩
    · exact hparsed parsed
    · exact hstatus mask packets
  rw [hreport, filterMap_cons_toList, hnone, List.append_nil]

@[simp] theorem starts_reportOf : starts (reportOf op c success message) = [] :=
  filterMap_reportOf _ _ _ _ _ (fun _ => rfl) fun _ _ => rfl

@[simp] theorem completions_reportOf : completions (reportOf op c success message) = [op] :=
  filterMap_reportOf _ _ _ _ _ (fun _ => rfl) fun _ _ => rfl

@[simp] theorem successes_reportOf :
    successes (reportOf op c success message) = if success then [op.place] else [] := by
  have h := filterMap_reportOf op c success message Output.succeededPlace (fun _ => rfl)
    fun _ _ => rfl
  cases success <;> exact h

@[simp] theorem accepted_reportOf : accepted (reportOf op c success message) = [] :=
  filterMap_reportOf _ _ _ _ _ (fun _ => rfl) fun _ _ => rfl

@[simp] theorem removed_reportOf : removed (reportOf op c success message) = [] := by
  have h := filterMap_reportOf op c success message Output.clearedPlaces (fun _ => rfl)
    fun _ _ => rfl
  simp [removed, h, Output.clearedPlaces]

@[simp] theorem acceptedGroups_reportOf : acceptedGroups (reportOf op c success message) = [] :=
  filterMap_reportOf _ _ _ _ _ (fun _ => rfl) fun _ _ => rfl

@[simp] theorem finishedGroups_reportOf : finishedGroups (reportOf op c success message) = [] :=
  filterMap_reportOf _ _ _ _ _ (fun _ => rfl) fun _ _ => rfl

end

section
variable (address : UInt16) (success : Bool) (groups : List (Nat × GroupInfo))

/-- A settled address is taken from the groups that wait for it; those with nothing left to
wait for are reported with the conjunction of their results. -/
theorem mem_settleGroups_snd {o : Output} (h : o ∈ (settleGroups address success groups).2) :
    ∃ entry ∈ groups, address ∈ entry.2.pendingAddresses ∧
      (settle entry.2 address success).pendingAddresses = [] ∧
      o = .groupCommandCompleted entry.1
        ((settle entry.2 address success).results.entries.all fun result => result.2) "" := by
  induction groups with
  | nil => simp [settleGroups] at h
  | cons entry rest ih =>
    simp only [settleGroups] at h
    by_cases hrest : o ∈ (settleGroups address success rest).2
    · obtain ⟨other, hmem, hother⟩ := ih hrest
      exact ⟨other, List.mem_cons_of_mem _ hmem, hother⟩
    · split at h
      next hpending =>
        split at h
        next hempty =>
          obtain rfl := (List.mem_cons.mp h).resolve_right hrest
          exact ⟨entry, List.mem_cons_self, hpending, hempty, rfl⟩
        next => exact absurd h hrest
      next => exact absurd h hrest

/-- The groups that stay. -/
theorem mem_settleGroups_fst {groupId : Nat} {g : GroupInfo}
    (h : (groupId, g) ∈ (settleGroups address success groups).1) :
    ∃ g₀, (groupId, g₀) ∈ groups ∧ ((address ∉ g₀.pendingAddresses ∧ g = g₀) ∨
      (address ∈ g₀.pendingAddresses ∧ g = settle g₀ address success ∧
        g.pendingAddresses ≠ [])) := by
  induction groups with
  | nil => simp [settleGroups] at h
  | cons entry rest ih =>
    simp only [settleGroups] at h
    by_cases hrest : (groupId, g) ∈ (settleGroups address success rest).1
    · obtain ⟨g₀, hmem, hg⟩ := ih hrest
      exact ⟨g₀, List.mem_cons_of_mem _ hmem, hg⟩
    · split at h
      next hpending =>
        split at h
        next => exact absurd h hrest
        next hnonempty =>
          cases (List.mem_cons.mp h).resolve_right hrest
          exact ⟨entry.2, List.mem_cons_self, .inr ⟨hpending, rfl, hnonempty⟩⟩
      next hpending =>
        cases (List.mem_cons.mp h).resolve_right hrest
        exact ⟨entry.2, List.mem_cons_self, .inl ⟨hpending, rfl⟩⟩

/-- A group stays or is reported. -/
theorem count_settleGroups (groupId : Nat) :
    ((settleGroups address success groups).1.map Prod.fst).count groupId +
      (finishedGroups (settleGroups address success groups).2).count groupId =
      (groups.map Prod.fst).count groupId := by
  induction groups with
  | nil => rfl
  | cons entry rest ih =>
    simp only [settleGroups]
    split
    · split
      · simp only [finishedGroups_cons, Output.finishedGroup, Option.toList_some,
          List.singleton_append, List.map_cons, List.count_cons]
        omega
      · simp only [List.map_cons, List.count_cons]
        omega
    · simp only [List.map_cons, List.count_cons]
      omega

theorem isRecord_of_mem_settleGroups {o : Output}
    (h : o ∈ (settleGroups address success groups).2) : o.isRecord = true := by
  obtain ⟨entry, -, -, -, rfl⟩ := mem_settleGroups_snd _ _ _ h
  rfl

/-- What does not look at finished groups sees nothing of a settlement. -/
theorem filterMap_settleGroups {β : Type} (f : Output → Option β)
    (hf : ∀ groupId allSuccess, f (.groupCommandCompleted groupId allSuccess "") = none) :
    (settleGroups address success groups).2.filterMap f = [] := by
  refine List.filterMap_eq_nil_iff.mpr fun o ho => ?_
  obtain ⟨entry, -, -, -, rfl⟩ := mem_settleGroups_snd _ _ _ ho
  exact hf ..

@[simp] theorem starts_settleGroups : starts (settleGroups address success groups).2 = [] :=
  filterMap_settleGroups _ _ _ _ fun _ _ => rfl

@[simp] theorem completions_settleGroups :
    completions (settleGroups address success groups).2 = [] :=
  filterMap_settleGroups _ _ _ _ fun _ _ => rfl

@[simp] theorem successes_settleGroups :
    successes (settleGroups address success groups).2 = [] :=
  filterMap_settleGroups _ _ _ _ fun _ _ => rfl

@[simp] theorem accepted_settleGroups : accepted (settleGroups address success groups).2 = [] :=
  filterMap_settleGroups _ _ _ _ fun _ _ => rfl

@[simp] theorem removed_settleGroups : removed (settleGroups address success groups).2 = [] := by
  have h := filterMap_settleGroups address success groups Output.clearedPlaces fun _ _ => rfl
  simp [removed, h]

@[simp] theorem acceptedGroups_settleGroups :
    acceptedGroups (settleGroups address success groups).2 = [] :=
  filterMap_settleGroups _ _ _ _ fun _ _ => rfl

/-- A completion and what it finishes start nothing. -/
theorem not_startedOp_of_mem_completion {op : Operation} {c : PPBContext} {message : String}
    {o : Output}
    (ho : o ∈ reportOf op c success message ++ (settleGroups address success groups).2) :
    o.startedOp = none := by
  have hnone : starts (reportOf op c success message ++ (settleGroups address success groups).2) =
      [] := by simp
  exact List.filterMap_eq_nil_iff.mp hnone o ho

end

end Engine

end PPB
