import ClickScope.Theory.ShortCodes

/-!
# Every Short Code Reaches Its Routes

A path of one segment can only be answered by the routes of one segment, and a
path of two by those of two, or by the documentation. The other routes of one
segment have names that no storable code is: one is reserved, one has a dot.
So the paths of a storable code pass by every router that is mounted before the
redirect router, and reach its routes with the code as their parameter.

## Main definitions

* `redirectRoutes`, `earlierRoutes`: The last router, and those before it.
* `Passes`: A route that leaves a path to the routes behind it.

## Theorems

* `passes_visit`, `passes_unlock`: The earlier routes leave the paths of a code.
* `short_codes_dispatched`: The paths of a code reach the redirect routes.
-/

namespace ClickScope

/-- The routes of the redirect router. -/
def redirectRoutes : List Route :=
  [paramRoute .get [.param] .visit, paramRoute .post [.param, .literal "unlock"] .unlock]

/-- The routes of all routers that are mounted before it. -/
def earlierRoutes : List Route := routes.take 15

theorem routes_split : routes = earlierRoutes ++ redirectRoutes := rfl

/-- A route that does not match a path, or leaves some of it over. -/
def Passes (r : Route) (parts : List (List Char)) : Prop :=
  ∀ raw more, matchSegments r.pattern parts = some (raw, more) → r.takes more = false

variable {code : String}

/-- No storable code has a dot. -/
theorem storable_ne_openapi (h : Storable code) :
    code.toList.map Char.toLower ≠ "openapi.json".toList.map Char.toLower := by
  intro heq
  have hdot : '.' ∈ code.toList.map Char.toLower := by
    rw [heq]
    decide
  rcases List.mem_map.mp hdot with ⟨c, hc, hlower⟩
  have hchar := storable_chars h c hc
  have hall : ∀ n < 128, codeChar (Char.ofNat n) = true → (Char.ofNat n).toLower ≠ '.' := by decide
  have hself : Char.ofNat c.toNat = c := Char.ofNat_toNat c
  exact hall c.toNat (codeChar_lt hchar) (hself.symm ▸ hchar) (hself.symm ▸ hlower)

/-- The earlier routes match no segment at all, or one of three names, or more
    than one segment. -/
theorem earlierRoutes_cases : ∀ r ∈ earlierRoutes, (r.pattern = [] ∧ r.isPrefix = false) ∨
    r.pattern ∈ [[.literal "health"], [.literal "docs"], [.literal "openapi.json"]] ∨
    2 ≤ r.pattern.length := by
  decide

/-- A name that is not the first segment does not match. -/
theorem matchSegments_literal {s : String} {part : List Char} {parts : List (List Char)}
    (h : part.map Char.toLower ≠ s.toList.map Char.toLower) :
    matchSegments [.literal s] (part :: parts) = none := by
  rw [matchSegments, if_neg h]

/-- The earlier routes of at most one segment leave the paths of a code. -/
theorem passes_short (h : Storable code) {r : Route} (hr : r ∈ earlierRoutes)
    (hlen : r.pattern.length < 2) (parts : List (List Char)) : Passes r (code.toList :: parts) := by
  intro raw more hmatch
  rcases earlierRoutes_cases r hr with ⟨hnil, hfull⟩ | hname | htwo
  · rw [hnil, matchSegments, Option.some.injEq, Prod.mk.injEq] at hmatch
    refine takes_eq_false.mpr ⟨hfull, hmatch.2 ▸ List.cons_ne_nil _ _, fun _ hslash => ?_⟩
    rw [← hmatch.2] at hslash
    exact storable_ne_nil h (List.cons.inj hslash).1
  · -- A name that is reserved or has a dot is no storable code.
    simp only [List.mem_cons, List.not_mem_nil, or_false] at hname
    rcases hname with hname | hname | hname
    · rw [hname, matchSegments_literal (storable_ne_reserved h "health" (by decide))] at hmatch
      cases hmatch
    · rw [hname, matchSegments_literal (storable_ne_docs h)] at hmatch
      cases hmatch
    · rw [hname, matchSegments_literal (storable_ne_openapi h)] at hmatch
      cases hmatch
  · omega

theorem passes_visit (h : Storable code) : ∀ r ∈ earlierRoutes, Passes r [code.toList] := by
  intro r hr
  by_cases hlen : r.pattern.length < 2
  · exact passes_short h hr hlen []
  · intro raw more hmatch
    have hparts := matchSegments_length hmatch
    rw [List.length_singleton] at hparts
    omega

/-- No route of two segments before the redirect router begins with a parameter,
    and the names they begin with are reserved. -/
theorem passes_unlock (h : Storable code) :
    ∀ r ∈ earlierRoutes, Passes r [code.toList, "unlock".toList] := by
  intro r hr
  by_cases hlen : r.pattern.length < 2
  · exact passes_short h hr hlen ["unlock".toList]
  · have hapi : ∀ r ∈ earlierRoutes, 2 ≤ r.pattern.length →
        r.pattern.head? = some (.literal "api") := by decide
    have hhead := hapi r hr (by omega)
    intro raw more hmatch
    rcases hpattern : r.pattern with _ | ⟨seg, pattern⟩
    · rw [hpattern] at hhead
      cases hhead
    · rw [hpattern, List.head?_cons, Option.some.injEq] at hhead
      rw [hpattern, hhead, matchSegments,
        if_neg (storable_ne_reserved h "api" (by decide))] at hmatch
      cases hmatch

theorem firstMatch_visit (h : Storable code) :
    firstMatch .get [code.toList] routes = .visit code := by
  have hmatch : matchSegments [.param] [code.toList] = some ([code.toList], []) := by
    simp only [matchSegments, if_neg (storable_ne_nil h), Option.map_some]
  rw [routes_split, firstMatch_append (passes_visit h), redirectRoutes]
  simp only [firstMatch, paramRoute, hmatch, decodeParams_storable h]
  rfl

/-- The segments of the path of a code, with a trailing slash and without it. -/
theorem segments_visit (h : Storable code) {path : String}
    (hpath : path ∈ ["/" ++ code, "/" ++ code ++ "/"]) : segments path = [code.toList] := by
  have hslash : ∀ part ∈ [] ++ [code.toList], '/' ∉ part := by
    rw [List.nil_append, List.forall_mem_cons]
    exact ⟨storable_slash h, fun _ hpart => (by cases hpart)⟩
  refine segments_pathOf hslash (storable_ne_nil h) ?_
  simp only [List.mem_cons, List.not_mem_nil, or_false] at hpath
  rcases hpath with rfl | rfl
  · refine Or.inl ?_
    simp only [String.toList_append, pathOf, List.nil_append, List.flatMap_cons,
      List.flatMap_nil, List.append_nil]
    rfl
  · refine Or.inr ?_
    simp only [String.toList_append, pathOf, List.nil_append, List.flatMap_cons,
      List.flatMap_nil, List.append_nil]
    rfl

theorem segments_unlock_path (h : Storable code) {path : String}
    (hpath : path ∈ ["/" ++ code ++ "/unlock", "/" ++ code ++ "/unlock/"]) :
    segments path = [code.toList, "unlock".toList] := by
  simp only [List.mem_cons, List.not_mem_nil, or_false] at hpath
  rcases hpath with rfl | rfl
  · exact segments_unlock h
  · have hslash : ∀ part ∈ [code.toList] ++ ["unlock".toList], '/' ∉ part := by
      rw [List.singleton_append, List.forall_mem_cons]
      exact ⟨storable_slash h, by decide⟩
    refine segments_pathOf hslash (by decide) (Or.inr ?_)
    simp only [String.toList_append, pathOf, List.singleton_append, List.flatMap_cons,
      List.flatMap_nil, List.append_nil]
    change '/' :: code.toList ++ "/unlock/".toList
      = '/' :: (code.toList ++ '/' :: "unlock".toList) ++ ['/']
    rw [List.cons_append, List.cons_append, List.append_assoc]
    rfl

/-- The paths of a storable code reach the redirect routes, with the code as
    their parameter, and no router that is mounted earlier answers them. -/
theorem short_codes_dispatched (code : String) (h : Storable code) :
    (∀ path ∈ ["/" ++ code, "/" ++ code ++ "/"],
      dispatch .get path = .visit code ∧ ∀ r ∈ earlierRoutes, Passes r (segments path)) ∧
    (∀ path ∈ ["/" ++ code ++ "/unlock", "/" ++ code ++ "/unlock/"],
      dispatch .post path = .unlock code ∧ ∀ r ∈ earlierRoutes, Passes r (segments path)) := by
  constructor
  · intro path hpath
    rw [dispatch, segments_visit h hpath]
    exact ⟨firstMatch_visit h, passes_visit h⟩
  · intro path hpath
    rw [dispatch, segments_unlock_path h hpath]
    exact ⟨firstMatch_unlock h, passes_unlock h⟩

/-- A code with the letters of a name, but not all of it. -/
theorem short_codes_dispatched_docs :
    dispatch .get "/Docs-1" = .visit "Docs-1" ∧
      dispatch .post "/Docs-1/unlock/" = .unlock "Docs-1" := by
  have hcode : Storable "Docs-1" := Or.inl ⟨0, accepts_customAlias.mpr
    ⟨"Docs-1", rfl, rfl, by decide, by decide, by decide, by decide⟩⟩
  have hroutes := short_codes_dispatched "Docs-1" hcode
  exact ⟨(hroutes.1 "/Docs-1" (by decide)).1, (hroutes.2 "/Docs-1/unlock/" (by decide)).1⟩

end ClickScope
