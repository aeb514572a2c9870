import ClickScope.Core.LinkService
import ClickScope.Theory.Statements

/-!
# What a Partial Update Writes

The statement that `updateLink` assembles, against the update it stands for.

The service collects clauses and values side by side and numbers each clause by
the length of the values so far. `patched` is the row the caller asked for:
the fields that are present replaced, the others kept. `applySet_setListOf` says
that the assembled statement computes exactly that row, whichever fields are
present and whatever is bound after them, so no proof about an update has to
look at clauses or parameter numbers again.

## Main definitions

* `patched`: The row a partial update asks for.

## Theorems

* `applySet_setListOf`: The assembled statement computes the patched row.
* `setListOf_values`, `setListOf_all`: The values it binds.
* `setListOf_length`, `setListOf_empty`: A clause for every value.
* `param_ids`: The parameters of its `WHERE` clause.
-/

namespace ClickScope

/-- The row with the fields of the input that are present. The password is
    given by its hash. -/
def patched (now : Nat) (input : UpdateLinkInput) (passwordHash : Option (Option String))
    (row : LinkRow) : LinkRow :=
  { row with
    destinationUrl := input.destinationUrl.getD row.destinationUrl
    expiresAt := input.expiresAt.getD row.expiresAt
    maxClicks := input.maxClicks.getD row.maxClicks
    isActive := input.isActive.getD row.isActive
    passwordHash := passwordHash.getD row.passwordHash
    updatedAt := now }

theorem push_all {p : SqlValue → Bool} {s : SetList} {col : LinkColumn} {v : Option SqlValue} :
    (s.push col v).values.all p = (s.values.all p && v.all p) := by
  cases v with
  | none => exact (Bool.and_true _).symm
  | some v =>
      simp only [SetList.push, List.all_append, List.all_cons, List.all_nil, Bool.and_true,
        Option.all_some]

/-- What all values of a set list satisfy, field by field. -/
theorem setListOf_all {p : SqlValue → Bool} {input : UpdateLinkInput}
    {passwordHash : Option (Option String)} :
    (setListOf input passwordHash).values.all p
      = (input.destinationUrl.all (fun u => p (.text (some u))) &&
          input.expiresAt.all (fun t => p (.timestamp t)) &&
          input.maxClicks.all (fun n => p (.integer n)) &&
          input.isActive.all (fun b => p (.boolean b)) &&
          passwordHash.all (fun h => p (.text h))) := by
  simp only [setListOf, push_all, Option.all_map, List.all_nil, Bool.true_and]

theorem push_length {s : SetList} {col : LinkColumn} {v : Option SqlValue}
    (h : s.setClauses.length = s.values.length) :
    (s.push col v).setClauses.length = (s.push col v).values.length := by
  cases v with
  | none => exact h
  | some v =>
      simp only [SetList.push, List.length_append, List.length_cons, List.length_nil]
      omega

/-- There is a clause for every value. -/
theorem setListOf_length {input : UpdateLinkInput} {passwordHash : Option (Option String)} :
    (setListOf input passwordHash).setClauses.length
      = (setListOf input passwordHash).values.length :=
  push_length (push_length (push_length (push_length (push_length rfl))))

/-- Without a clause nothing is asked. -/
theorem setListOf_empty {input : UpdateLinkInput} {passwordHash : Option (Option String)}
    (h : (setListOf input passwordHash).setClauses.length = 0) (row : LinkRow) :
    patched row.updatedAt input passwordHash row = row := by
  rw [setListOf_length, List.length_eq_zero_iff] at h
  -- No value satisfies anything, so every field is absent.
  have hnone : (setListOf input passwordHash).values.all (fun _ => false) = true := by
    rw [h]
    rfl
  rw [setListOf_all] at hnone
  rcases input with ⟨destinationUrl, expiresAt, maxClicks, isActive, password⟩
  simp only [Bool.and_eq_true, Option.all_eq_true, Bool.false_eq_true, imp_false] at hnone
  rcases hnone with ⟨⟨⟨⟨hurl, hexp⟩, hclicks⟩, hactive⟩, hpassword⟩
  rw [patched, Option.eq_none_iff_forall_ne_some.mpr hurl,
    Option.eq_none_iff_forall_ne_some.mpr hexp, Option.eq_none_iff_forall_ne_some.mpr hclicks,
    Option.eq_none_iff_forall_ne_some.mpr hactive, Option.eq_none_iff_forall_ne_some.mpr hpassword]
  rfl

/-- Every clause finds its own value, one case per set of present fields. -/
theorem applySet_setListOf (now : Nat) (input : UpdateLinkInput)
    (passwordHash : Option (Option String)) (more : List SqlValue) (row : LinkRow) :
    applySet now ((setListOf input passwordHash).values ++ more)
      ((setListOf input passwordHash).setClauses ++ [.updatedAtNow]) row
      = .ok (patched now input passwordHash row) := by
  rcases input with ⟨destinationUrl, expiresAt, maxClicks, isActive, password⟩
  cases destinationUrl <;> cases expiresAt <;> cases maxClicks <;> cases isActive <;>
    cases passwordHash <;> rfl

/-- The hash is bound after the other fields. -/
theorem setListOf_values (input : UpdateLinkInput) (passwordHash : Option (Option String)) :
    (setListOf input passwordHash).values
      = (setListOf input none).values ++ (passwordHash.map SqlValue.text).toList := by
  rcases input with ⟨destinationUrl, expiresAt, maxClicks, isActive, password⟩
  cases destinationUrl <;> cases expiresAt <;> cases maxClicks <;> cases isActive <;>
    cases passwordHash <;> rfl

/-- The last two values are the id and the owner. -/
theorem param_ids (values : List SqlValue) (linkId userId : String) :
    param (values ++ [.uuid linkId, .account userId])
        ((values ++ [SqlValue.uuid linkId, .account userId]).length - 1) = some (.uuid linkId) ∧
      param (values ++ [.uuid linkId, .account userId])
        (values ++ [SqlValue.uuid linkId, .account userId]).length = some (.account userId) := by
  simp only [List.length_append, List.length_cons, List.length_nil, Nat.zero_add]
  constructor
  · rw [show values.length + (1 + 1) - 1 = values.length + 1 by omega]
    simp only [param, List.getElem?_append_right (Nat.le_refl _), Nat.sub_self,
      List.getElem?_cons_zero]
  · rw [show values.length + (1 + 1) = values.length + 1 + 1 by omega]
    simp only [param]
    rw [List.getElem?_append_right (Nat.le_succ _),
      show values.length.succ - values.length = 1 by omega]
    rfl

end ClickScope
