import ClickScope.Core.RateLimit
import ClickScope.Theory.Validation

/-!
# The Keys of the Unlock Limiter

Two requests have the same key exactly if they have the same client and the
same short code.

The key is the client, a colon, and the short code. The code can have colons
and slashes, and an address of the sixth version has colons as well. But an
IPv4 address has neither, so that it ends where the first colon is; an IPv6
network has no slash, so that it ends where the first slash is; and a key of
one kind is none of the other, since up to the first colon only an IPv4 address
has a dot.

The code is cut to the length of an alias, but a request that passes the
validation has no code that is longer.

## Theorems

* `slice_whole`: A short text is not cut.
* `client_inj`: The client and the code are determined by the key.
* `unlockKey_iff`: Which requests have the same key.
-/

namespace ClickScope

open Zod

section Codes

/-- A short text is not cut. -/
theorem slice_whole {n : Nat} {s : List Char}
    (h : (s.map (fun c => if c.toNat < 0x10000 then 1 else 2)).sum ≤ n) : slice n s = s := by
  induction s generalizing n with
  | nil => cases n <;> rfl
  | cons c s ih =>
      rw [List.map_cons, List.sum_cons] at h
      rcases n with _ | n
      · split_ifs at h <;> omega
      · rw [slice]
        by_cases hc : c.toNat < 0x10000
        · rw [if_pos hc] at h ⊢
          rw [ih (by omega)]
        · rw [if_neg hc] at h ⊢
          rw [if_neg (by omega), ih (by omega)]

theorem accepts_shortCode_length {t : Nat} {code : String} {out : JsValue}
    (h : Accepts shortCodeParamSchema t (shortCodeParams code) out) :
    jsLength code ≤ MAX_ALIAS_LENGTH := by
  rcases accepts_object.mp h with ⟨fields, out, hfields, rfl, hparse, _⟩
  rw [shortCodeParams, JsValue.object.injEq] at hfields
  subst hfields
  rcases parseShape_cons.mp hparse with ⟨a, rest, hacc, _, rfl⟩
  rcases accepts_string.mp hacc with ⟨s, hs, rfl, hchecks⟩
  have hsame : code = s := JsValue.string.inj hs
  simp only [runChecks_nil, List.mem_cons, List.not_mem_nil, or_false, forall_eq_or_imp, forall_eq,
    Zod.min, Zod.max, decide_eq_true_eq] at hchecks
  rw [hsame]
  exact hchecks.2

end Codes

section Clients

/-- What `ipKeyGenerator` makes of a client's address. -/
def ClientKey (k : List Char) : Prop :=
  (':' ∉ k ∧ '.' ∈ k) ∨
    ∃ network : List Char, k = network ++ "/56".toList ∧
      (∀ c ∈ network, networkChar c = true) ∧ ':' ∈ network

theorem repr_digits (n : Nat) : ∀ c ∈ n.repr.toList, c.isDigit = true := by
  intro c hc
  have hlist : n.repr.toList = Nat.toDigits 10 n := String.toList_ofList
  exact Nat.isDigit_of_mem_toDigits (by decide) (by decide) (hlist ▸ hc)

theorem ipv4_chars {ip : String} (h : isIPv4 ip) : ':' ∉ ip.toList ∧ '.' ∈ ip.toList := by
  rcases h with ⟨a, b, c, d, _, _, _, _, rfl⟩
  have hcolon : ∀ n : Nat, ':' ∉ n.repr.toList := fun n hmem =>
    absurd (repr_digits n ':' hmem) (by decide)
  have hdot : ".".toList = ['.'] := rfl
  simp only [String.toList_append, hdot]
  constructor
  · simp only [List.mem_append, List.mem_singleton, hcolon, false_or, or_false, not_or]
    decide
  · simp only [List.mem_append, List.mem_singleton, or_true, true_or]

theorem clientKey_key (G : IpKeyGenerator) {ip : String} (h : isIPv4 ip ∨ G.isIPv6 ip) :
    ClientKey (G.key ip).toList := by
  rcases h with h | h
  · rw [G.ipv4 ip h]
    exact Or.inl (ipv4_chars h)
  · rcases G.ipv6 ip h with ⟨network, hliteral, hkey⟩
    rw [hkey, String.toList_append]
    exact Or.inr ⟨network.toList, rfl, hliteral⟩

/-- A text ends where the first separator is. -/
theorem append_cons_inj {d : Char} {xs ys s t : List Char} (hx : d ∉ xs) (hy : d ∉ ys)
    (h : xs ++ d :: s = ys ++ d :: t) : xs = ys ∧ s = t := by
  induction xs generalizing ys with
  | nil =>
      cases ys with
      | nil => exact ⟨rfl, List.tail_eq_of_cons_eq h⟩
      | cons y ys => exact absurd (List.head_eq_of_cons_eq h ▸ List.mem_cons_self) hy
  | cons x xs ih =>
      rw [List.mem_cons, not_or] at hx
      cases ys with
      | nil => exact absurd (List.head_eq_of_cons_eq h).symm hx.1
      | cons y ys =>
          rw [List.mem_cons, not_or] at hy
          rw [List.cons_append, List.cons_append, List.cons.injEq] at h
          have hrest := ih hx.2 hy.2 h.2
          exact ⟨by rw [h.1, hrest.1], hrest.2⟩

/-- An address that has no colon is no network, whatever follows. -/
theorem ipv4_ne_network {k network s t : List Char} (hk : ':' ∉ k) (hdot : '.' ∈ k)
    (hchars : ∀ c ∈ network, networkChar c = true) (hcolon : ':' ∈ network) :
    k ++ ':' :: s ≠ network ++ t := by
  intro heq
  rcases List.eq_append_cons_of_mem hcolon with ⟨first, rest, rfl, hfirst⟩
  rw [List.append_assoc, List.cons_append] at heq
  have hsame := (append_cons_inj hk hfirst heq).1
  have hmem : '.' ∈ first ++ ':' :: rest := List.mem_append_left _ (hsame ▸ hdot)
  exact absurd (hchars '.' hmem) (by decide)

/-- The client and the code are determined by the key. -/
theorem client_inj {k k' s t : List Char} (hk : ClientKey k) (hk' : ClientKey k')
    (heq : k ++ ':' :: s = k' ++ ':' :: t) : k = k' ∧ s = t := by
  have hslash : ∀ network : List Char, (∀ c ∈ network, networkChar c = true) → '/' ∉ network :=
    fun network hchars hmem => absurd (hchars '/' hmem) (by decide)
  rcases hk with ⟨hcolon, hdot⟩ | ⟨network, rfl, hchars, hmem⟩
  · rcases hk' with ⟨hcolon', _⟩ | ⟨network', rfl, hchars', hmem'⟩
    · -- Both addresses end at the first colon.
      exact append_cons_inj hcolon hcolon' heq
    · rw [List.append_assoc] at heq
      exact absurd heq (ipv4_ne_network hcolon hdot hchars' hmem')
  · rcases hk' with ⟨hcolon', hdot'⟩ | ⟨network', rfl, hchars', hmem'⟩
    · rw [List.append_assoc] at heq
      exact absurd heq.symm (ipv4_ne_network hcolon' hdot' hchars hmem)
    · -- Both networks end at the first slash.
      rw [List.append_assoc, List.append_assoc] at heq
      change network ++ '/' :: (['5', '6', ':'] ++ s) = network' ++ '/' :: (['5', '6', ':'] ++ t)
        at heq
      have hsame := append_cons_inj (hslash network hchars) (hslash network' hchars') heq
      exact ⟨by rw [hsame.1], List.append_cancel_left hsame.2⟩

/-- The key of a request is its client, a colon and its code. -/
theorem unlockKey_toList {G : IpKeyGenerator} {req : UnlockPost} (h : UnlockRequested G req) :
    (unlockKey G req).toList = (G.key req.ip).toList ++ ':' :: req.shortCode.toList := by
  rcases h.2 with ⟨t, out, hacc⟩
  have hcolon : ":".toList = [':'] := rfl
  have hwhole := slice_whole (accepts_shortCode_length hacc)
  rw [unlockKey, hwhole, String.ofList_toList, String.toList_append, String.toList_append, hcolon,
    List.append_assoc, List.singleton_append]

/-- Which requests have the same key. -/
theorem unlockKey_iff {G : IpKeyGenerator} {a b : UnlockPost} (ha : UnlockRequested G a)
    (hb : UnlockRequested G b) :
    unlockKey G a = unlockKey G b ↔ G.key a.ip = G.key b.ip ∧ a.shortCode = b.shortCode := by
  constructor
  · intro heq
    have hlist := congrArg String.toList heq
    rw [unlockKey_toList ha, unlockKey_toList hb] at hlist
    have hparts := client_inj (clientKey_key G ha.1) (clientKey_key G hb.1) hlist
    exact ⟨String.toList_inj.mp hparts.1, String.toList_inj.mp hparts.2⟩
  · rintro ⟨hclient, hcode⟩
    rw [unlockKey, unlockKey, hclient, hcode]

/-- The prefix of a limiter makes no difference. -/
theorem storeKey_iff {l : Limiter} {k k' : String} : l.storeKey k = l.storeKey k' ↔ k = k' := by
  constructor
  · intro heq
    have hlist := congrArg String.toList heq
    simp only [Limiter.storeKey, String.toList_append] at hlist
    exact String.toList_inj.mp (List.append_cancel_left hlist)
  · rintro rfl
    rfl

end Clients

end ClickScope
