/-!
# Leading parts of texts

Keys in the store start with a part that says whose they are.  `startsWith` asks for it and
`afterStart?` takes it off; `afterStart?_append` says that what is left is what it was put before.
-/

namespace Bulwark.Text

/-- Whether a text starts with another. -/
def startsWith (start s : String) : Bool := start.toList.isPrefixOf s.toList

/-- What follows a leading part. -/
def afterStart? (start s : String) : Option String :=
  if startsWith start s then some (String.ofList (s.toList.drop start.toList.length)) else none

@[simp]
theorem startsWith_append (start rest : String) : startsWith start (start ++ rest) = true := by
  simp [startsWith]

@[simp]
theorem afterStart?_append (start rest : String) :
    afterStart? start (start ++ rest) = some rest := by
  simp [afterStart?]

theorem startsWith_iff (start s : String) :
    startsWith start s = true ↔ ∃ rest, s = start ++ rest := by
  constructor
  · intro h
    obtain ⟨rest, hrest⟩ := List.isPrefixOf_iff_prefix.1 h
    exact ⟨String.ofList rest, by rw [← String.toList_inj]; simp [hrest]⟩
  · rintro ⟨rest, rfl⟩
    simp

theorem afterStart?_eq_some_iff {start s rest : String} :
    afterStart? start s = some rest ↔ s = start ++ rest := by
  constructor
  · intro h
    have hstart : startsWith start s = true := by
      unfold afterStart? at h
      split at h
      · assumption
      · cases h
    obtain ⟨rest', rfl⟩ := (startsWith_iff start s).mp hstart
    rw [afterStart?_append] at h
    rw [Option.some.inj h]
  · rintro rfl
    exact afterStart?_append start rest

end Bulwark.Text
