import Mathlib

/-!
# String operations of the scripting language

The few methods of strings the programs of this repository call, on lists of
characters, so that they can be evaluated by the kernel.

* `includes`, `toLowerCase`, `toUpperCase`, `split`, `join`, `repeatStr` — the methods.
* `split_of_not_mem`, `split_append` — a text without the separator, and one up to its
  first separator.
* `split_join`, `join_split` — texts that are joined and split again, and the other way round.
* `split_three` — a text of three parts is put together from no others.
* `split_toUpperCase` — split in capitals.
-/

namespace JsString

/-- `s.includes(sub)` on the characters of a string. -/
def includesL (sub : List Char) : List Char → Bool
  | [] => sub.isEmpty
  | c :: cs => sub.isPrefixOf (c :: cs) || includesL sub cs

/-- `s.includes(sub)`. -/
def includes (s sub : String) : Bool := includesL sub.toList s.toList

/-- `s.toLowerCase()` on ASCII. -/
def toLowerCase (s : String) : String := String.ofList (s.toList.map Char.toLower)

@[simp] theorem toLowerCase_toLowerCase (s : String) :
    toLowerCase (toLowerCase s) = toLowerCase s := by
  simp [toLowerCase, Function.comp_def]

/-- `s.toUpperCase()` on ASCII. -/
def toUpperCase (s : String) : String := String.ofList (s.toList.map Char.toUpper)

/-- `s.split(sep)` for a separator of one character. -/
def split (s : String) (sep : Char) : List String := (s.toList.splitOn sep).map String.ofList

/-- `parts.join(sep)` for a separator of one character. -/
def join (parts : List String) (sep : Char) : String :=
  String.ofList ([sep].intercalate (parts.map String.toList))

/-- The message of `s.repeat(count)` for a negative count. -/
def invalidCount (count : ℤ) : String := s!"Invalid count value: {count}"

/-- `s.repeat(count)`. -/
def repeatStr (s : String) (count : ℤ) : Except String String :=
  if count < 0 then .error (invalidCount count)
  else .ok (String.ofList (List.replicate count.toNat s.toList).flatten)

theorem repeatStr_of_neg (s : String) {count : ℤ} (h : count < 0) :
    repeatStr s count = .error (invalidCount count) := if_pos h

theorem repeatStr_of_nonneg (s : String) {count : ℤ} (h : 0 ≤ count) :
    repeatStr s count = .ok (String.ofList (List.replicate count.toNat s.toList).flatten) :=
  if_neg (not_lt.2 h)

/-! ## Splitting -/

section

variable {sep : Char}

theorem split_of_not_mem {s : String} (h : sep ∉ s.toList) : split s sep = [s] := by
  rw [split, List.splitOn_eq_singleton h, List.map_cons, List.map_nil, String.ofList_toList]

/-- Up to the first separator. -/
theorem split_append {a b t : String} (ht : t.toList = [sep]) (ha : sep ∉ a.toList) :
    split (a ++ t ++ b) sep = a :: split b sep := by
  have hlist : (a ++ t ++ b).toList = a.toList ++ sep :: b.toList := by
    rw [String.toList_append, String.toList_append, ht, List.append_assoc, List.singleton_append]
  rw [split, hlist, List.splitOn_append_cons_self_of_not_mem ha, List.map_cons,
    String.ofList_toList, ← split]

/-- **Joined and split again.** -/
theorem split_join {parts : List String} (hne : parts ≠ [])
    (h : ∀ s ∈ parts, sep ∉ s.toList) : split (join parts sep) sep = parts := by
  have hparts : ∀ l ∈ parts.map String.toList, sep ∉ l := by
    intro l hl
    obtain ⟨s, hs, rfl⟩ := List.mem_map.1 hl
    exact h s hs
  rw [split, join, String.toList_ofList, List.splitOn_intercalate sep hparts (by simpa using hne),
    List.map_map]
  exact List.map_id'' (fun s => String.ofList_toList) _

/-- **Split and joined again.** -/
theorem join_split (s : String) (sep : Char) : join (split s sep) sep = s := by
  have hlists : (split s sep).map String.toList = s.toList.splitOn sep := by
    rw [split, List.map_map]
    exact List.map_id'' (fun l => String.toList_ofList) _
  rw [join, hlists, List.intercalate_splitOn, String.ofList_toList]

theorem split_ne_nil (s : String) (sep : Char) : split s sep ≠ [] := by
  rw [split, ne_eq, List.map_eq_nil_iff]
  exact List.splitOn_ne_nil sep _

/-- Texts with a separator between them are split one after the other. -/
theorem split_append_sep {a b t : String} (ht : t.toList = [sep]) :
    split (a ++ t ++ b) sep = split a sep ++ split b sep := by
  have hlist : (a ++ t ++ b).toList = a.toList ++ sep :: b.toList := by
    rw [String.toList_append, String.toList_append, ht, List.append_assoc, List.singleton_append]
  rw [split, hlist, List.splitOn_append_cons_self, List.map_append]
  rfl

/-- A text of one part is that part. -/
theorem eq_of_split {s a : String} (h : split s sep = [a]) : s = a := by
  rw [← join_split s sep, h, join]
  simp [List.intercalate]

/-- A text of three parts that is put together from three texts is put together from its parts. -/
theorem split_three {a b c x y z t : String} (ht : t.toList = [sep])
    (h : split (a ++ t ++ b ++ t ++ c) sep = [x, y, z]) : a = x ∧ b = y ∧ c = z := by
  rw [split_append_sep ht, split_append_sep ht] at h
  obtain ⟨a', as, ha⟩ := List.exists_cons_of_ne_nil (split_ne_nil a sep)
  obtain ⟨b', bs, hb⟩ := List.exists_cons_of_ne_nil (split_ne_nil b sep)
  obtain ⟨c', cs, hc⟩ := List.exists_cons_of_ne_nil (split_ne_nil c sep)
  have hlength := congrArg List.length h
  simp only [ha, hb, hc, List.length_append, List.length_cons, List.length_nil] at hlength
  obtain rfl : as = [] := List.length_eq_zero_iff.1 (by omega)
  obtain rfl : bs = [] := List.length_eq_zero_iff.1 (by omega)
  obtain rfl : cs = [] := List.length_eq_zero_iff.1 (by omega)
  rw [ha, hb, hc] at h
  simp only [List.cons_append, List.nil_append, List.cons.injEq, and_true] at h
  obtain ⟨rfl, rfl, rfl⟩ := h
  exact ⟨eq_of_split ha, eq_of_split hb, eq_of_split hc⟩

/-- Only a separator is one in capitals. -/
theorem toUpper_eq_iff (hsep : sep.isAlpha = false) (c : Char) : c.toUpper = sep ↔ c = sep := by
  have hlower : ∀ d : Char, d.isAlpha = false → d.toUpper = d := by
    intro d hd
    apply Char.toUpper_eq_of_not_isLower
    intro hlow
    rw [Char.isAlpha, hlow, Bool.or_true] at hd
    cases hd
  constructor
  · intro h
    rw [← h]
    refine (hlower c ?_).symm
    rw [← Char.isAlpha_toUpper_eq_isAlpha, h, hsep]
  · rintro rfl
    exact hlower _ hsep

/-- **Split in capitals.** -/
theorem split_toUpperCase (hsep : sep.isAlpha = false) (s : String) :
    split (toUpperCase s) sep = (split s sep).map toUpperCase := by
  have hlist : ∀ l : List Char,
      (l.map Char.toUpper).splitOn sep = (l.splitOn sep).map (List.map Char.toUpper) := by
    intro l
    induction l with
    | nil => rfl
    | cons c l ih =>
      rw [List.map_cons, List.splitOn_cons_eq_if_modifyHead, List.splitOn_cons_eq_if_modifyHead, ih]
      by_cases hc : c = sep
      · rw [if_pos (by simpa [toUpper_eq_iff hsep] using hc), if_pos (by simpa using hc)]
        rfl
      · rw [if_neg (by simpa [toUpper_eq_iff hsep] using hc), if_neg (by simpa using hc)]
        cases l.splitOn sep with
        | nil => rfl
        | cons a as => rfl
  rw [split, split, toUpperCase, String.toList_ofList, hlist, List.map_map, List.map_map]
  refine List.map_congr_left fun l _ => ?_
  simp [toUpperCase]

end

end JsString
