import Gathering.Cache.Key
import Gathering.Cache.TimedMap
import Mathlib.Data.List.Basic

/-!
# What the names of cached entries tell

The name of an entry is a word for its kind and identifiers with colons between
them, and an identifier may itself hold a colon. So the name does not tell the
identifiers: it tells the **path**, the identifiers joined by colons, and the
entries found under an event are those whose path begins like the path of the
event (`begins_location`, `begins_confirmation`). Only where no identifier holds a
colon does the path tell the identifiers (`location_injective`,
`eq_of_begins`).
-/

namespace Gathering.Cache

open TimedMap (begins)

theorem begins_iff {start key : String} :
    begins start key = true ↔ start.toList <+: key.toList :=
  List.isPrefixOf_iff_prefix

theorem begins_append (word start key : String) :
    begins (word ++ start) (word ++ key) = begins start key := by
  rw [Bool.eq_iff_iff, begins_iff, begins_iff, String.toList_append, String.toList_append]
  exact List.prefix_append_right_inj _

namespace Key

/-- **The path of a location.** -/
def locationPath (eventId participantId : String) : String :=
  eventId ++ ":" ++ participantId

/-- **The path of a reply.** -/
def confirmationPath (orgId eventId participantId : String) : String :=
  orgId ++ ":" ++ eventId ++ ":" ++ participantId

theorem locationsOf_eq (eventId : String) :
    locationsOf eventId = "location:latest:" ++ (eventId ++ ":") :=
  String.append_assoc

theorem confirmationsOf_eq (orgId eventId : String) :
    confirmationsOf orgId eventId = "confirmation:" ++ (orgId ++ ":" ++ eventId ++ ":") := by
  have h : "confirmation:" ++ orgId ++ ":" ++ eventId ++ ":" =
      "confirmation:" ++ (orgId ++ ":" ++ eventId ++ ":") := by
    simp only [String.append_assoc]
  exact h

theorem location_eq (eventId participantId : String) :
    location eventId participantId = "location:latest:" ++ locationPath eventId participantId := by
  refine (congrArg (· ++ participantId) (locationsOf_eq eventId)).trans ?_
  simp only [locationPath, String.append_assoc]

theorem confirmation_eq (orgId eventId participantId : String) :
    confirmation orgId eventId participantId =
      "confirmation:" ++ confirmationPath orgId eventId participantId := by
  refine (congrArg (· ++ participantId) (confirmationsOf_eq orgId eventId)).trans ?_
  simp only [confirmationPath, String.append_assoc]

variable {o e p o' e' p' : String}

/-- **A location is found under an event** exactly if its path begins like that of the event.

So the locations of an event whose identifier begins with that of another one and a colon are
found under the other one as well. -/
theorem begins_location :
    begins (locationsOf e) (location e' p') = begins (e ++ ":") (locationPath e' p') := by
  rw [location_eq, locationsOf_eq, begins_append]

/-- **A reply is found under an event of an organisation** exactly if its path begins like that of
the event. -/
theorem begins_confirmation :
    begins (confirmationsOf o e) (confirmation o' e' p') =
      begins (o ++ ":" ++ e ++ ":") (confirmationPath o' e' p') := by
  rw [confirmation_eq, confirmationsOf_eq, begins_append]

theorem begins_confirmationsOf (o e p : String) :
    begins (confirmationsOf o e) (confirmation o e p) = true := by
  rw [begins_iff, confirmation, String.toList_append]
  exact List.prefix_append _ _

/-- What is found under an event of an organisation has the name of a reply. -/
theorem eq_confirmation_of_begins {key : String} (h : begins (confirmationsOf o e) key = true) :
    ∃ p, key = confirmation o e p := by
  obtain ⟨rest, hrest⟩ := begins_iff.mp h
  refine ⟨String.ofList rest, String.toList_inj.mp ?_⟩
  rw [confirmation, String.toList_append, String.toList_ofList, hrest]

/-- Two texts that differ in front do not begin alike. -/
theorem begins_eq_false {start key : String} (h : start.toList.head? ≠ key.toList.head?)
    (hne : start.toList ≠ []) : begins start key = false := by
  rw [Bool.eq_false_iff, ne_eq, begins_iff]
  rintro ⟨rest, hrest⟩
  refine h ?_
  rw [← hrest, List.head?_append_of_ne_nil _ hne]

theorem begins_locationsOf_confirmation :
    begins (locationsOf e) (confirmation o' e' p') = false := by
  refine begins_eq_false ?_ ?_ <;>
  simp [locationsOf_eq, confirmation_eq]

theorem begins_confirmationsOf_location :
    begins (confirmationsOf o e) (location e' p') = false := by
  refine begins_eq_false ?_ ?_ <;>
  simp [location_eq, confirmationsOf_eq]

/-! ## Identifiers without a colon

Then the first colon of a path is the one behind the first identifier, and what is before it is
this identifier. -/

theorem takeWhile_colon {s : String} (h : ':' ∉ s.toList) (rest : List Char) :
    (s.toList ++ ':' :: rest).takeWhile (· ≠ ':') = s.toList := by
  have hall : ∀ c ∈ s.toList, decide (c ≠ ':') = true := fun c hc =>
    decide_eq_true (ne_of_mem_of_not_mem hc h)
  rw [List.takeWhile_append_of_pos hall]
  exact List.append_nil _

/-- **A path with colons only between identifiers tells the first one.** -/
theorem eq_of_begins {rest : String} (h : ':' ∉ e.toList) (h' : ':' ∉ e'.toList)
    (hbegins : begins (e ++ ":") (e' ++ ":" ++ rest) = true) : e' = e := by
  obtain ⟨more, hmore⟩ := begins_iff.mp hbegins
  simp only [String.toList_append, List.append_assoc] at hmore
  have hfirst := congrArg (List.takeWhile (· ≠ ':')) hmore
  rw [show ":".toList = [':'] from rfl, List.singleton_append, List.singleton_append,
    takeWhile_colon h, takeWhile_colon h'] at hfirst
  exact (String.toList_inj.mp hfirst).symm

/-- **A path with colons only between identifiers tells the organisation and the event.** -/
theorem eq_of_begins_confirmation (ho : ':' ∉ o.toList) (he : ':' ∉ e.toList)
    (ho' : ':' ∉ o'.toList) (he' : ':' ∉ e'.toList)
    (h : begins (o ++ ":" ++ e ++ ":") (confirmationPath o' e' p') = true) : o' = o ∧ e' = e := by
  have hsplit : begins (o ++ ":" ++ (e ++ ":")) (o' ++ ":" ++ (e' ++ ":" ++ p')) = true := by
    simpa only [confirmationPath, String.append_assoc] using h
  have hfirst : begins (o ++ ":") (o' ++ ":" ++ (e' ++ ":" ++ p')) = true := by
    refine begins_iff.mpr (List.IsPrefix.trans ?_ (begins_iff.mp hsplit))
    rw [String.toList_append (s := o ++ ":")]
    exact List.prefix_append _ _
  obtain rfl := eq_of_begins ho ho' hfirst
  rw [begins_append] at hsplit
  exact ⟨rfl, eq_of_begins he he' hsplit⟩

/-- **Where neither identifier holds a colon, a location has a name of its own.** -/
theorem location_injective (he : ':' ∉ e.toList) (hp : ':' ∉ p.toList)
    (h : location e' p' = location e p) : e' = e ∧ p' = p := by
  have hpath := congrArg String.toList h
  rw [location_eq, location_eq] at hpath
  simp only [locationPath, String.toList_append, List.append_assoc, List.append_cancel_left_eq]
    at hpath
  obtain ⟨hevent, -, hparticipant⟩ := (List.append_cons_inj_of_notMem he hp).mp hpath.symm
  exact ⟨(String.toList_inj.mp hevent).symm, (String.toList_inj.mp hparticipant).symm⟩

end Key

end Gathering.Cache
