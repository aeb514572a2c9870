import Mathlib.Data.List.Basic
import Mathlib.Logic.Encodable.Basic
import Mathlib.Logic.Equiv.List

/-!
# Signed Tokens and Password Hashes

The two libraries the service trusts, as interfaces carrying their contracts.

A token payload is what JSON gives back: named claims, each a string, a number
or something else. An absent claim is a lookup that finds nothing, which is how
the code sees `undefined`.

`Jwt` is signing and verification under the one configured secret. Its contract
is that verification of a token the same secret signed succeeds with the
payload that was signed, until the payload's expiry, and reports the expiry
from then on. That no one else can produce a verifying token is not part of
the library; it is an assumption about runs, stated where it is used.

## Main definitions

* `ClaimValue`, `JwtPayload`: What a payload carries.
* `Jwt`: Signing and verification, with their contract.
* `Jwt.issue`: Signing with `iat` and `exp` filled in.
* `Bcrypt`: Hashing and comparison, with the fact the service relies on.
* `sampleJwt`, `sampleBcrypt`: Instances of the two contracts.

## Theorems

* `verify_issue`: What verification says of an issued token.
-/

namespace ClickScope

/-- The value of one claim. -/
inductive ClaimValue : Type
  | str (s : String)
  | num (n : Int)
  | other
deriving DecidableEq, Repr

abbrev JwtPayload := List (String × ClaimValue)

/-- The claim under a name, if the payload has it. -/
def JwtPayload.claim (p : JwtPayload) (name : String) : Option ClaimValue :=
  List.lookup name p

inductive JwtError : Type
  | expired
  | invalid
deriving DecidableEq, Repr

/-- Signing and verification under the configured secret. Times are the whole
    seconds of the clock. -/
structure Jwt where
  sign : JwtPayload → String
  verify : Int → String → Except JwtError JwtPayload
  verify_sign : ∀ (now : Int) (p : JwtPayload) (exp : Int), p.claim "exp" = some (.num exp) →
    verify now (sign p) = if exp ≤ now then .error .expired else .ok p

/-- The claims of a token signed at `iat` to be valid for `ttl` seconds. -/
def stamped (claims : JwtPayload) (iat ttl : Int) : JwtPayload :=
  ("iat", .num iat) :: ("exp", .num (iat + ttl)) :: claims

/-- `jwt.sign` with an `expiresIn`: the library fills in `iat` and `exp`. -/
def Jwt.issue (jwt : Jwt) (claims : JwtPayload) (iat ttl : Int) : String :=
  jwt.sign (stamped claims iat ttl)

/-- The clock in whole seconds. -/
def seconds (now : Nat) : Int := ((now / 1000 : Nat) : Int)

@[simp] theorem stamped_exp (claims : JwtPayload) (iat ttl : Int) :
    (stamped claims iat ttl).claim "exp" = some (.num (iat + ttl)) := rfl

theorem stamped_claim (claims : JwtPayload) (iat ttl : Int) (name : String)
    (hi : name ≠ "iat") (he : name ≠ "exp") :
    (stamped claims iat ttl).claim name = JwtPayload.claim claims name := by
  simp only [stamped, JwtPayload.claim, List.lookup_cons, beq_eq_false_iff_ne.mpr hi,
    beq_eq_false_iff_ne.mpr he]

/-- An issued token verifies to its stamped claims until it expires. -/
theorem verify_issue (jwt : Jwt) (claims : JwtPayload) (iat ttl now : Int) :
    jwt.verify now (jwt.issue claims iat ttl)
      = if iat + ttl ≤ now then .error .expired else .ok (stamped claims iat ttl) :=
  jwt.verify_sign now (stamped claims iat ttl) (iat + ttl) (stamped_exp claims iat ttl)

/-- Password hashing. The service relies on a hash never being the empty
    string, which it would take for no password at all, and on every hash being
    text that Postgres can store. -/
structure Bcrypt where
  hash : String → String → String
  compare : String → String → Bool
  hash_ne_empty : ∀ plain salt, hash plain salt ≠ ""
  hash_no_nul : ∀ plain salt, ∀ c ∈ (hash plain salt).toList, c ≠ Char.ofNat 0

instance charEncodable : Encodable Char :=
  Encodable.ofLeftInjection Char.toNat (fun n => some (Char.ofNat n))
    (fun c => by simp only [Char.ofNat_toNat])

instance stringEncodable : Encodable String :=
  Encodable.ofLeftInjection String.toList (fun l => some (String.ofList l))
    (fun s => by simp only [String.ofList_toList])

instance claimEncodable : Encodable ClaimValue :=
  Encodable.ofLeftInjection
    (fun v => match v with
      | .str s => (Sum.inl s : String ⊕ Option Int)
      | .num n => Sum.inr (some n)
      | .other => Sum.inr none)
    (fun x => match x with
      | .inl s => some (.str s)
      | .inr (some n) => some (.num n)
      | .inr none => some .other)
    (fun v => by cases v <;> rfl)

/-- A token text as long as its payload's code number. It meets the contract,
    so nothing that is proved from the contract is vacuous. -/
def sampleJwt : Jwt where
  sign p := String.ofList (List.replicate (Encodable.encode p) '.')
  verify now token :=
    match Encodable.decode (α := JwtPayload) token.length with
    | none => .error .invalid
    | some p =>
        match p.claim "exp" with
        | some (.num exp) => if exp ≤ now then .error .expired else .ok p
        | _ => .error .invalid
  verify_sign now p exp hexp := by
    simp only [String.length_ofList, List.length_replicate, Encodable.encodek, hexp]

/-- The marked password itself, without the characters that cannot be stored. -/
def sampleHash (plain : String) : String :=
  "$" ++ String.ofList (plain.toList.filter (fun c => c != Char.ofNat 0))

def sampleBcrypt : Bcrypt where
  hash plain _ := sampleHash plain
  compare plain hash := hash == sampleHash plain
  hash_ne_empty plain _ h := by
    have := congrArg String.toList h
    simp only [sampleHash, String.toList_append, String.toList_empty,
      List.append_eq_nil_iff] at this
    exact absurd this.1 (by decide)
  hash_no_nul plain _ c hc := by
    simp only [sampleHash, String.toList_append, String.toList_ofList, List.mem_append,
      List.mem_filter, bne_iff_ne] at hc
    rcases hc with hc | hc
    · rw [show "$".toList = ['$'] from rfl, List.mem_singleton] at hc
      rw [hc]
      decide
    · exact hc.2

end ClickScope
