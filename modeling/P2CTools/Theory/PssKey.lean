import P2CTools.Theory.Elements

/-!
# RSASSA-PSS Keys

Which certificates pass `_check_pss_key_restrictions`, stated as RFC 4055
states it: as the structure of a TBSCertificate, with no order of checks.

The grammar is written over the kind of element a container may hold. The
program reads lengths of at most four bytes, so for it the kind is
`Encodable`, and `checkPssKeyRestrictions_iff` is the equivalence at that kind.
Without the bound on the length it holds of every input below four gibibytes,
and fails in one direction above them: a BIT STRING that long is a value of
the grammar that the program refuses.

The loop over the parameters keeps two verdicts and a salt length, and starts
from values of which only the salt passes. A field settles what the checks
after the loop ask about its own tag and leaves the other tags alone, and the
tags increase, so no later field settles it again. `Demand` says this of a
state in the middle of the loop, and `demand_cons_iff` is the one step behind
the whole run.

## Main definitions

* `Permitted`: A parameter that allows the signature the protocol asks for.
* `Restrictions`: The parameters of a key that allows it.
* `PssKey`: A TBSCertificate whose key allows it.
* `Settled`: What the checks after the loop ask about a tag.
* `Demand`: What they still ask of the parameters not read yet.
* `Transfers`: Containers of one kind that are containers of another.

## Theorems

* `derNonnegativeInteger_eq_ok_iff`: Which integers are read.
* `pssField_settles`, `pssField_permitted`: What a branch settles, and for
  which parameters.
* `demand_cons_iff`: One pass of the loop over the parameters.
* `pssKeyRestrictions_eq_ok_iff`: Which TBSCertificates pass the checks.
* `checkPssKeyRestrictions_iff`: The same, with the error for the rest.
* `checkPssKeyRestrictions_iff_lowTag`: The same below four gibibytes, with
  lengths of any size.
* `checkPssKeyRestrictions_huge`: A key too long for the program's lengths.
-/

namespace P2CTools

open Wire

namespace Der

section Grammar

variable (P : Element → Prop)

/-- A byte string that is one SEQUENCE of elements. -/
def Sequence (encoded : Bytes) (xs : List Element) : Prop :=
  ∃ value, Complete P encoded [(0x30, value)] ∧ Complete P value xs

/-- The fields of an AlgorithmIdentifier for SHA-256, with its parameters
    absent or NULL. -/
def Sha256Fields (xs : List Element) : Prop :=
  xs = [(0x06, sha256OidDer)] ∨ xs = [(0x06, sha256OidDer), (0x05, [])]

/-- An AlgorithmIdentifier of SHA-256. -/
def Sha256Algorithm (encoded : Bytes) : Prop :=
  ∃ xs, Sequence P encoded xs ∧ Sha256Fields xs

/-- An AlgorithmIdentifier of MGF1 with SHA-256. -/
def Mgf1Algorithm (encoded : Bytes) : Prop :=
  ∃ parameters xs, Sequence P encoded [(0x06, mgf1OidDer), (0x30, parameters)] ∧
    Complete P parameters xs ∧ Sha256Fields xs

/-- One minimally encoded INTEGER. -/
def Integer (encoded : Bytes) (n : Nat) : Prop :=
  Complete P encoded [(0x02, content n)]

/-- A parameter, under its explicit tag, that allows SHA-256, MGF1 with
    SHA-256 and a salt of 32 bytes. -/
inductive Permitted : Element → Prop
  | hash (value : Bytes) (h : Sha256Algorithm P value) : Permitted (0xA0, value)
  | mask (value : Bytes) (h : Mgf1Algorithm P value) : Permitted (0xA1, value)
  | salt (value : Bytes) (n : Nat) (h : Integer P value n) (hn : n ≤ 32) : Permitted (0xA2, value)
  | trailer (value : Bytes) (h : Integer P value 1) : Permitted (0xA3, value)

/-- The parameters of a key: in the order of their tags and each at most once,
    with the hash and the mask generation present. A salt length that is absent
    means 20, and an absent trailer means 1. -/
structure Restrictions (fields : List Element) : Prop where
  permitted : ∀ x ∈ fields, Permitted P x
  increasing : fields.Pairwise fun x y => x.1 < y.1
  hash : 0xA0 ∈ fields.map Prod.fst
  mask : 0xA1 ∈ fields.map Prod.fst

/-- What is behind the algorithm: nothing, or one SEQUENCE of parameters. -/
def PssParameters (parameters : List Element) : Prop :=
  parameters = [] ∨ ∃ encoded fields, parameters = [(0x30, encoded)] ∧
    Complete P encoded fields ∧ Restrictions P fields

/-- A TBSCertificate whose key is an id-RSASSA-PSS key without parameters, or
    with parameters that allow the signature. The key is behind the optional
    version and five more fields. -/
def PssKey (tbsCertificateBytes : Bytes) : Prop :=
  ∃ tbs spki algorithm bits parameters,
    Sequence P tbsCertificateBytes tbs ∧
    tbs[if tbs.head?.map Prod.fst = some 0xA0 then 6 else 5]? = some (0x30, spki) ∧
    Complete P spki [(0x30, algorithm), (0x03, bits)] ∧
    Complete P algorithm ((0x06, rsassaPssOidDer) :: parameters) ∧
    PssParameters P parameters

end Grammar

/-- The checks on an integer's value leave the values in at most four bytes
    that are the content of the number they denote. -/
theorem nonnegative_iff (value : Bytes) :
    ¬(value = [] ∨ value.length > 4 ∨ (∃ x ∈ value.head?, x &&& 0x80 ≠ 0) ∨
      (value.length > 1 ∧ value.head? = some 0 ∧ ∃ x ∈ value[1]?, x &&& 0x80 = 0)) ↔
      value.length ≤ 4 ∧ content (beNat value) = value := by
  cases value with
  | nil =>
      simp only [true_or, not_true_eq_false, false_iff, not_and]
      exact fun _ => content_ne_nil 0
  | cons x t =>
      rw [content_beNat_iff]
      simp only [reduceCtorEq, false_or, List.head?_cons, Option.mem_def, Option.some.injEq,
        exists_eq_left', not_or, top_bit, List.length_cons, List.getElem?_cons_succ]
      push Not
      refine and_congr_right fun _ => and_congr_right fun _ => ?_
      cases t with
      | nil =>
          constructor
          · rintro - - y u h
            exact absurd h.symm (List.cons_ne_nil y u)
          · rintro - h
            exact absurd h (Nat.lt_irrefl 1)
      | cons y u =>
          -- The second byte is there, so the check on it is not vacuous.
          simp only [List.getElem?_cons_zero, Option.some.injEq, forall_eq', List.length_cons,
            top_bit, List.cons.injEq, and_imp]
          constructor
          · rintro h hx y' u' rfl -
            exact h (by omega) hx
          · rintro h - hx
            exact h hx y u rfl rfl

/-- An integer is read when it is minimally encoded and takes four bytes at
    most. -/
theorem derNonnegativeInteger_eq_ok_iff (encoded : Bytes) (n : Nat) :
    derNonnegativeInteger encoded = .ok n ↔ n < 2 ^ 31 ∧ Integer Encodable encoded n := by
  simp only [derNonnegativeInteger, bind_eq_ok_iff, derSingle_eq_ok_iff, failIf_eq_ok_iff,
    nonnegative_iff, pure_eq_ok_iff, exists_const]
  have hbound : ∀ m, (content m).length ≤ 4 ↔ m < 2 ^ 31 := by
    intro m
    rw [length_content, width_le_iff]
    omega
  constructor
  · rintro ⟨value, hvalue, ⟨hlen, hcontent⟩, rfl⟩
    -- The checks leave a value that is the content of its number.
    rw [← hcontent, hbound] at hlen
    refine ⟨hlen, ?_⟩
    rw [Integer, hcontent]
    exact hvalue
  · rintro ⟨hn, hvalue⟩
    refine ⟨content n, hvalue, ⟨(hbound n).mpr hn, ?_⟩, beNat_content n⟩
    rw [beNat_content]

theorem sha256Algorithm_eq_true_iff (encoded : Bytes) :
    sha256Algorithm encoded = .ok true ↔
      ∃ xs, Complete Encodable encoded xs ∧ Sha256Fields xs := by
  simp only [sha256Algorithm, bind_eq_ok_iff, derElements_eq_ok_iff, pure_eq_ok_iff,
    Bool.or_eq_true, beq_iff_eq, Sha256Fields]

theorem mgf1Algorithm_eq_true_iff (mgf : List Element) :
    mgf1Algorithm mgf = .ok true ↔
      ∃ parameters xs, mgf = [(0x06, mgf1OidDer), (0x30, parameters)] ∧
        Complete Encodable parameters xs ∧ Sha256Fields xs := by
  unfold mgf1Algorithm
  constructor
  · intro h
    split at h
    · split at h
      -- The verdict on the parameters is that on the hash they name.
      · rename_i hboth
        rcases hboth with ⟨rfl, rfl⟩
        rcases (sha256Algorithm_eq_true_iff _).mp h with ⟨xs, hxs, hsha⟩
        exact ⟨_, xs, rfl, hxs, hsha⟩
      · exact absurd (Except.ok.inj h) Bool.false_ne_true
    · exact absurd (Except.ok.inj h) Bool.false_ne_true
  · rintro ⟨parameters, xs, rfl, hxs, hsha⟩
    exact (sha256Algorithm_eq_true_iff parameters).mpr ⟨xs, hxs, hsha⟩

/-- What the checks after the loop ask about the parameter with a tag. -/
def Settled (s : PssState) (tag : UInt8) : Prop :=
  (tag = 0xA0 → s.hashIsSha256 = true) ∧ (tag = 0xA1 → s.mgf1IsSha256 = true) ∧
    (tag = 0xA2 → s.minimumSalt ≤ 32)

theorem settled_hash (s : PssState) : Settled s 0xA0 ↔ s.hashIsSha256 = true :=
  ⟨fun h => h.1 rfl, fun h =>
    ⟨fun _ => h, fun ht => absurd ht (by decide), fun ht => absurd ht (by decide)⟩⟩

theorem settled_mask (s : PssState) : Settled s 0xA1 ↔ s.mgf1IsSha256 = true :=
  ⟨fun h => h.2.1 rfl, fun h =>
    ⟨fun ht => absurd ht (by decide), fun _ => h, fun ht => absurd ht (by decide)⟩⟩

theorem settled_salt (s : PssState) : Settled s 0xA2 ↔ s.minimumSalt ≤ 32 :=
  ⟨fun h => h.2.2 rfl, fun h =>
    ⟨fun ht => absurd ht (by decide), fun ht => absurd ht (by decide), fun _ => h⟩⟩

theorem settled_trailer (s : PssState) : Settled s 0xA3 :=
  ⟨fun ht => absurd ht (by decide), fun ht => absurd ht (by decide),
    fun ht => absurd ht (by decide)⟩

/-- The branches on the tag, each by what it reads and what it changes. -/
theorem pssField_hash_eq_ok_iff (s s' : PssState) (value : Bytes) :
    pssField s 0xA0 value = .ok s' ↔ ∃ single verdict,
      Complete Encodable value [(0x30, single)] ∧ sha256Algorithm single = .ok verdict ∧
        { s with hashIsSha256 := verdict } = s' := by
  rw [pssField, if_pos rfl]
  simp only [bind_eq_ok_iff, derSingle_eq_ok_iff, pure_eq_ok_iff, exists_and_left]

theorem pssField_mask_eq_ok_iff (s s' : PssState) (value : Bytes) :
    pssField s 0xA1 value = .ok s' ↔ ∃ mgf verdict, Sequence Encodable value mgf ∧
      mgf1Algorithm mgf = .ok verdict ∧ { s with mgf1IsSha256 := verdict } = s' := by
  rw [pssField, if_neg (by decide), if_pos rfl]
  simp only [bind_eq_ok_iff, derSingle_eq_ok_iff, derElements_eq_ok_iff, pure_eq_ok_iff, Sequence]
  constructor
  · rintro ⟨single, hsingle, mgf, hmgf, verdict, hverdict, rfl⟩
    exact ⟨mgf, verdict, ⟨single, hsingle, hmgf⟩, hverdict, rfl⟩
  · rintro ⟨mgf, verdict, ⟨single, hsingle, hmgf⟩, hverdict, rfl⟩
    exact ⟨single, hsingle, mgf, hmgf, verdict, hverdict, rfl⟩

theorem pssField_salt_eq_ok_iff (s s' : PssState) (value : Bytes) :
    pssField s 0xA2 value = .ok s' ↔ ∃ salt, (salt < 2 ^ 31 ∧ Integer Encodable value salt) ∧
      { s with minimumSalt := salt } = s' := by
  rw [pssField, if_neg (by decide), if_neg (by decide), if_pos rfl]
  simp only [bind_eq_ok_iff, derNonnegativeInteger_eq_ok_iff, pure_eq_ok_iff]

theorem pssField_trailer_eq_ok_iff (s s' : PssState) (value : Bytes) :
    pssField s 0xA3 value = .ok s' ↔ Integer Encodable value 1 ∧ s = s' := by
  rw [pssField, if_neg (by decide), if_neg (by decide), if_neg (by decide)]
  simp only [bind_eq_ok_iff, derNonnegativeInteger_eq_ok_iff, failIf_eq_ok_iff, pure_eq_ok_iff,
    ne_eq, not_not, exists_const]
  constructor
  · rintro ⟨trailer, ⟨-, htrailer⟩, rfl, hs⟩
    exact ⟨htrailer, hs⟩
  · rintro ⟨htrailer, hs⟩
    exact ⟨1, ⟨by omega, htrailer⟩, rfl, hs⟩

/-- A branch leaves every tag but its own as it was, and settles its own only
    for a parameter that is permitted. -/
theorem pssField_settles (s s' : PssState) (tag : UInt8) (value : Bytes)
    (htag : tag ∈ [0xA0, 0xA1, 0xA2, 0xA3]) (h : pssField s tag value = .ok s') :
    (Settled s' tag → Permitted Encodable (tag, value)) ∧
      ∀ t, t ≠ tag → (Settled s' t ↔ Settled s t) := by
  simp only [List.mem_cons, List.not_mem_nil, or_false] at htag
  rcases htag with rfl | rfl | rfl | rfl
  · -- The hash is settled by the verdict on its algorithm.
    rcases (pssField_hash_eq_ok_iff s s' value).mp h with ⟨single, verdict, hsingle, hverdict, rfl⟩
    refine ⟨fun hset => ?_, fun t ht => ?_⟩
    · have htrue : verdict = true := (settled_hash _).mp hset
      rw [htrue, sha256Algorithm_eq_true_iff] at hverdict
      rcases hverdict with ⟨xs, hxs, hsha⟩
      exact .hash value ⟨xs, ⟨single, hsingle, hxs⟩, hsha⟩
    · simp only [Settled, ht, false_implies, true_and]
  · rcases (pssField_mask_eq_ok_iff s s' value).mp h with ⟨mgf, verdict, hmgf, hverdict, rfl⟩
    refine ⟨fun hset => ?_, fun t ht => ?_⟩
    · have htrue : verdict = true := (settled_mask _).mp hset
      rw [htrue, mgf1Algorithm_eq_true_iff] at hverdict
      rcases hverdict with ⟨parameters, xs, rfl, hxs, hsha⟩
      exact .mask value ⟨parameters, xs, hmgf, hxs, hsha⟩
    · simp only [Settled, ht, false_implies, true_and]
  · -- Any salt length gets through, and is settled when it is not above 32.
    rcases (pssField_salt_eq_ok_iff s s' value).mp h with ⟨salt, ⟨-, hsalt⟩, rfl⟩
    refine ⟨fun hset => .salt value salt hsalt ((settled_salt _).mp hset), fun t ht => ?_⟩
    simp only [Settled, ht, false_implies, and_true]
  · -- A trailer that gets through is the permitted one.
    rcases (pssField_trailer_eq_ok_iff s s' value).mp h with ⟨htrailer, rfl⟩
    exact ⟨fun _ => .trailer value htrailer, fun t _ => Iff.rfl⟩

/-- A permitted parameter gets through its branch and settles its tag. -/
theorem pssField_permitted (s : PssState) (tag : UInt8) (value : Bytes)
    (hx : Permitted Encodable (tag, value)) :
    tag ∈ [0xA0, 0xA1, 0xA2, 0xA3] ∧ ∃ s', pssField s tag value = .ok s' ∧ Settled s' tag := by
  cases hx with
  | hash _ h =>
      rcases h with ⟨xs, ⟨single, hsingle, hxs⟩, hsha⟩
      have hverdict := (sha256Algorithm_eq_true_iff single).mpr ⟨xs, hxs, hsha⟩
      exact ⟨by decide, { s with hashIsSha256 := true },
        (pssField_hash_eq_ok_iff s _ value).mpr ⟨single, true, hsingle, hverdict, rfl⟩,
        (settled_hash _).mpr rfl⟩
  | mask _ h =>
      rcases h with ⟨parameters, xs, hmgf, hxs, hsha⟩
      have hverdict := (mgf1Algorithm_eq_true_iff _).mpr ⟨parameters, xs, rfl, hxs, hsha⟩
      exact ⟨by decide, { s with mgf1IsSha256 := true },
        (pssField_mask_eq_ok_iff s _ value).mpr ⟨_, true, hmgf, hverdict, rfl⟩,
        (settled_mask _).mpr rfl⟩
  | salt _ n h hn =>
      exact ⟨by decide, { s with minimumSalt := n },
        (pssField_salt_eq_ok_iff s _ value).mpr ⟨n, ⟨by omega, h⟩, rfl⟩, (settled_salt _).mpr hn⟩
  | trailer _ h =>
      exact ⟨by decide, s, (pssField_trailer_eq_ok_iff s s value).mpr ⟨h, rfl⟩, settled_trailer s⟩

/-- What the rest of the loop has to find: parameters that are permitted, in
    order and behind the last one read, one for each tag not settled yet. -/
structure Demand (s : PssState) (fields : List Element) : Prop where
  permitted : ∀ x ∈ fields, Permitted Encodable x
  increasing : fields.Pairwise fun x y => x.1 < y.1
  behind : ∀ x ∈ fields, s.previousTag < x.1
  settled : ∀ t, Settled s t ∨ t ∈ fields.map Prod.fst

/-- One pass of the loop meets its part of the demand and leaves the rest. -/
theorem demand_cons_iff (s : PssState) (x : Element) (xs : List Element) :
    Demand s (x :: xs) ↔ ∃ s', pssParameter s x = .ok s' ∧ Demand s' xs := by
  simp only [pssParameter, bind_eq_ok_iff, failIf_eq_ok_iff, pure_eq_ok_iff, not_or, not_not,
    UInt8.not_le, exists_const]
  constructor
  · rintro ⟨hpermitted, hincreasing, hbehind, hsettled⟩
    rcases List.pairwise_cons.mp hincreasing with ⟨hfirst, hrest⟩
    rcases pssField_permitted s x.1 x.2 (hpermitted x List.mem_cons_self) with
      ⟨htag, s', hs', hset⟩
    have hframe := (pssField_settles s s' x.1 x.2 htag hs').2
    refine ⟨{ s' with previousTag := x.1 }, ⟨⟨htag, hbehind x List.mem_cons_self⟩, s', hs', rfl⟩,
      fun y hy => hpermitted y (List.mem_cons_of_mem x hy), hrest, hfirst, fun t => ?_⟩
    by_cases ht : t = x.1
    · subst ht
      exact Or.inl hset
    · -- Another tag is as settled as before, or its parameter is still to come.
      rcases hsettled t with h | h
      · exact Or.inl ((hframe t ht).mpr h)
      · exact Or.inr (List.mem_of_ne_of_mem ht h)
  · rintro ⟨s'', ⟨⟨htag, hlt⟩, s', hs', rfl⟩, hpermitted, hincreasing, hbehind, hsettled⟩
    rcases pssField_settles s s' x.1 x.2 htag hs' with ⟨hown, hframe⟩
    have hlast : x.1 ∉ xs.map Prod.fst := by
      intro hmem
      rcases List.mem_map.mp hmem with ⟨y, hy, heq⟩
      have hxy : x.1 < y.1 := hbehind y hy
      rw [heq] at hxy
      exact UInt8.lt_irrefl _ hxy
    -- No later parameter has this tag, so this one has settled it.
    have hx : Permitted Encodable x := hown ((hsettled x.1).resolve_right hlast)
    refine ⟨?_, List.pairwise_cons.mpr ⟨hbehind, hincreasing⟩, ?_, fun t => ?_⟩
    · intro y hy
      rcases List.mem_cons.mp hy with rfl | hy
      · exact hx
      · exact hpermitted y hy
    · intro y hy
      rcases List.mem_cons.mp hy with rfl | hy
      · exact hlt
      · exact UInt8.lt_trans hlt (hbehind y hy)
    · by_cases ht : t = x.1
      · subst ht
        exact Or.inr List.mem_cons_self
      · rcases hsettled t with h | h
        · exact Or.inl ((hframe t ht).mp h)
        · exact Or.inr (List.mem_cons_of_mem x.1 h)

/-- The checks after the loop are the demand on no parameters. -/
theorem demand_nil_iff (s : PssState) :
    Demand s [] ↔ ¬(!s.hashIsSha256 ∨ !s.mgf1IsSha256 ∨ s.minimumSalt > 32) := by
  simp only [Bool.not_eq_true', not_or, Bool.not_eq_false, Nat.not_lt]
  constructor
  · rintro ⟨-, -, -, h⟩
    have hall : ∀ t, Settled s t := fun t => (h t).resolve_right List.not_mem_nil
    exact ⟨(settled_hash s).mp (hall _), (settled_mask s).mp (hall _), (settled_salt s).mp (hall _)⟩
  · rintro ⟨hhash, hmask, hsalt⟩
    exact ⟨fun x hx => absurd hx List.not_mem_nil, List.Pairwise.nil,
      fun x hx => absurd hx List.not_mem_nil,
      fun t => Or.inl ⟨fun _ => hhash, fun _ => hmask, fun _ => hsalt⟩⟩

/-- The loop starts from a demand that leaves only the salt settled, and
    behind the tag in front of the first. -/
theorem demand_start_iff (fields : List Element) :
    Demand ⟨false, false, 20, 0x9F⟩ fields ↔ Restrictions Encodable fields := by
  constructor
  · rintro ⟨hpermitted, hincreasing, -, hsettled⟩
    refine ⟨hpermitted, hincreasing, (hsettled 0xA0).resolve_left fun h => ?_,
      (hsettled 0xA1).resolve_left fun h => ?_⟩
    · exact Bool.false_ne_true ((settled_hash _).mp h)
    · exact Bool.false_ne_true ((settled_mask _).mp h)
  · rintro ⟨hpermitted, hincreasing, hhash, hmask⟩
    refine ⟨hpermitted, hincreasing, fun x hx => ?_, fun t => ?_⟩
    · -- Every tag that is permitted is behind the one the loop starts from.
      have htag := (pssField_permitted ⟨false, false, 20, 0x9F⟩ x.1 x.2 (hpermitted x hx)).1
      change 0x9F < x.1
      generalize x.1 = tag at htag ⊢
      simp only [List.mem_cons, List.not_mem_nil, or_false] at htag
      rcases htag with rfl | rfl | rfl | rfl <;> decide
    · by_cases h0 : t = 0xA0
      · exact Or.inr (h0 ▸ hhash)
      by_cases h1 : t = 0xA1
      · exact Or.inr (h1 ▸ hmask)
      exact Or.inl ⟨fun h => absurd h h0, fun h => absurd h h1, fun _ => by decide⟩

theorem pssParameters_eq_ok_iff (parameters : List Element) :
    pssParameters parameters = .ok () ↔ PssParameters Encodable parameters := by
  unfold pssParameters
  constructor
  · intro h
    split at h
    · exact Or.inl rfl
    · rename_i encoded
      simp only [bind_eq_ok_iff, derElements_eq_ok_iff, failIf_eq_ok_iff, ← demand_nil_iff] at h
      rcases h with ⟨fields, hfields, hrun⟩
      -- The whole run meets the demand the loop starts from.
      have hdemand := (foldlM_eq_ok_iff (fun _ => Iff.rfl) demand_cons_iff fields _).mp hrun
      exact Or.inr ⟨encoded, fields, rfl, hfields, (demand_start_iff fields).mp hdemand⟩
    · exact absurd h (error_ne_ok _ _)
  · rintro (rfl | ⟨encoded, fields, rfl, hfields, hrestrictions⟩)
    · rfl
    · simp only [bind_eq_ok_iff, derElements_eq_ok_iff, failIf_eq_ok_iff, ← demand_nil_iff]
      have hdemand := (demand_start_iff fields).mpr hrestrictions
      exact ⟨fields, hfields,
        (foldlM_eq_ok_iff (fun _ => Iff.rfl) demand_cons_iff fields _).mpr hdemand⟩

/-- An empty SEQUENCE of parameters stands for SHA-1, and is not the same as no
    parameters. -/
example : pssParameters [(0x30, [])] =
    .error (valueError "key does not permit SHA-256 / MGF1-SHA-256 / salt length 32") := rfl

theorem pssAlgorithm_eq_ok_iff (algorithm : List Element) :
    pssAlgorithm algorithm = .ok () ↔
      ∃ parameters, algorithm = (0x06, rsassaPssOidDer) :: parameters ∧
        PssParameters Encodable parameters := by
  cases algorithm with
  | nil => simp only [pssAlgorithm, reduceCtorEq, false_and, exists_false]
  | cons oid rest =>
      simp only [pssAlgorithm, bind_eq_ok_iff, failIf_eq_ok_iff, pssParameters_eq_ok_iff,
        ne_eq, not_not, exists_const, List.cons.injEq]
      constructor
      · rintro ⟨hoid, hrest⟩
        exact ⟨rest, ⟨hoid, rfl⟩, hrest⟩
      · rintro ⟨parameters, ⟨hoid, rfl⟩, hrest⟩
        exact ⟨hoid, hrest⟩

theorem spkiAlgorithm_eq_ok_iff (spki : List Element) (algorithm : Bytes) :
    spkiAlgorithm spki = .ok algorithm ↔ ∃ bits, spki = [(0x30, algorithm), (0x03, bits)] := by
  unfold spkiAlgorithm
  constructor
  · intro h
    split at h
    · rename_i bits
      exact ⟨bits, by rw [Except.ok.inj h]⟩
    · exact absurd h (error_ne_ok _ _)
  · rintro ⟨bits, rfl⟩
    rfl

theorem tbsSpki_eq_ok_iff (tbs : List Element) (spki : Bytes) :
    tbsSpki tbs = .ok spki ↔ tbs[spkiIndex tbs]? = some (0x30, spki) := by
  unfold tbsSpki
  constructor
  · intro h
    split at h
    · rename_i heq
      rw [heq, Except.ok.inj h]
    · exact absurd h (error_ne_ok _ _)
  · intro h
    rw [h]
    rfl

/-- The TBSCertificates that pass the checks. -/
theorem pssKeyRestrictions_eq_ok_iff (tbsCertificateBytes : Bytes) :
    pssKeyRestrictions tbsCertificateBytes = .ok () ↔ PssKey Encodable tbsCertificateBytes := by
  simp only [pssKeyRestrictions, bind_eq_ok_iff, derSingle_eq_ok_iff, derElements_eq_ok_iff,
    tbsSpki_eq_ok_iff, spkiAlgorithm_eq_ok_iff, pssAlgorithm_eq_ok_iff, spkiIndex]
  constructor
  · rintro ⟨single, hsingle, tbs, htbs, spki, hspki, fields, hfields, algorithm, ⟨bits, rfl⟩,
      elements, helements, parameters, rfl, hparameters⟩
    exact ⟨tbs, spki, algorithm, bits, parameters, ⟨single, hsingle, htbs⟩, hspki, hfields,
      helements, hparameters⟩
  · rintro ⟨tbs, spki, algorithm, bits, parameters, ⟨single, hsingle, htbs⟩, hspki, hfields,
      helements, hparameters⟩
    exact ⟨single, hsingle, tbs, htbs, spki, hspki, _, hfields, algorithm, ⟨bits, rfl⟩,
      _, helements, parameters, rfl, hparameters⟩

/-- A TBSCertificate passes when it has such a key, and is refused with a
    `ProofVerificationError` otherwise. -/
theorem checkPssKeyRestrictions_iff (tbsCertificateBytes : Bytes) :
    (checkPssKeyRestrictions tbsCertificateBytes = .ok () ↔
        PssKey Encodable tbsCertificateBytes) ∧
      (¬PssKey Encodable tbsCertificateBytes →
        ∃ e, checkPssKeyRestrictions tbsCertificateBytes = .error e ∧
          e.cls = .proofVerificationError) := by
  have hiff : checkPssKeyRestrictions tbsCertificateBytes = .ok () ↔
      PssKey Encodable tbsCertificateBytes := by
    rw [checkPssKeyRestrictions, handle_error_eq_ok_iff, pssKeyRestrictions_eq_ok_iff]
  refine ⟨hiff, fun hnot => ?_⟩
  cases hcheck : checkPssKeyRestrictions tbsCertificateBytes with
  | ok u => exact absurd (hiff.mp hcheck) hnot
  | error e => exact ⟨e, rfl, fails_checkPssKeyRestrictions _ e hcheck⟩

section Transfer

variable {P Q : Element → Prop} {K : Bytes → Prop}

/-- Containers of one kind are containers of another, among the byte strings
    of a class that keeps what its containers hold. -/
def Transfers (P Q : Element → Prop) (K : Bytes → Prop) : Prop :=
  ∀ encoded xs, K encoded → Complete P encoded xs → Complete Q encoded xs ∧ ∀ x ∈ xs, K x.2

theorem Sequence.transfer (hK : Transfers P Q K) {encoded : Bytes} {xs : List Element}
    (hencoded : K encoded) (h : Sequence P encoded xs) :
    Sequence Q encoded xs ∧ ∀ x ∈ xs, K x.2 := by
  rcases h with ⟨value, hvalue, hxs⟩
  rcases hK _ _ hencoded hvalue with ⟨hvalue', hin⟩
  rcases hK _ _ (hin _ List.mem_cons_self) hxs with ⟨hxs', hin'⟩
  exact ⟨⟨value, hvalue', hxs'⟩, hin'⟩

theorem Permitted.transfer (hK : Transfers P Q K) {x : Element} (hx : K x.2)
    (h : Permitted P x) : Permitted Q x := by
  cases h with
  | hash value h =>
      rcases h with ⟨xs, hxs, hsha⟩
      exact .hash value ⟨xs, (hxs.transfer hK hx).1, hsha⟩
  | mask value h =>
      rcases h with ⟨parameters, xs, hmgf, hxs, hsha⟩
      rcases hmgf.transfer hK hx with ⟨hmgf', hin⟩
      have hparameters : K parameters := hin _ (List.mem_cons_of_mem _ List.mem_cons_self)
      exact .mask value ⟨parameters, xs, hmgf', (hK _ _ hparameters hxs).1, hsha⟩
  | salt value n h hn => exact .salt value n (hK _ _ hx h).1 hn
  | trailer value h => exact .trailer value (hK _ _ hx h).1

theorem PssParameters.transfer (hK : Transfers P Q K) {parameters : List Element}
    (hin : ∀ x ∈ parameters, K x.2) (h : PssParameters P parameters) :
    PssParameters Q parameters := by
  rcases h with rfl | ⟨encoded, fields, rfl, hfields, hrestrictions⟩
  · exact Or.inl rfl
  · rcases hK _ _ (hin _ List.mem_cons_self) hfields with ⟨hfields', hin'⟩
    exact Or.inr ⟨encoded, fields, rfl, hfields',
      fun x hx => (hrestrictions.permitted x hx).transfer hK (hin' x hx),
      hrestrictions.increasing, hrestrictions.hash, hrestrictions.mask⟩

theorem PssKey.transfer (hK : Transfers P Q K) {tbsCertificateBytes : Bytes}
    (htbs : K tbsCertificateBytes) (h : PssKey P tbsCertificateBytes) :
    PssKey Q tbsCertificateBytes := by
  rcases h with ⟨tbs, spki, algorithm, bits, parameters, hsequence, hspki, hkey, halgorithm,
    hparameters⟩
  rcases hsequence.transfer hK htbs with ⟨hsequence', hin⟩
  rcases hK _ _ (hin _ (List.mem_of_getElem? hspki)) hkey with ⟨hkey', hin'⟩
  rcases hK _ _ (hin' _ List.mem_cons_self) halgorithm with ⟨halgorithm', hin''⟩
  exact ⟨tbs, spki, algorithm, bits, parameters, hsequence', hspki, hkey', halgorithm',
    hparameters.transfer hK fun x hx => hin'' x (List.mem_cons_of_mem _ hx)⟩

end Transfer

/-- What the program accepts has the structure with any minimal lengths. -/
theorem PssKey.lowTag {tbsCertificateBytes : Bytes} (h : PssKey Encodable tbsCertificateBytes) :
    PssKey LowTag tbsCertificateBytes := by
  refine h.transfer (K := fun _ => True) (fun encoded xs _ hxs => ⟨⟨fun x hx => ?_, hxs.2⟩, ?_⟩)
    trivial
  · exact (hxs.1 x hx).1
  · exact fun _ _ => trivial

theorem length_le_flatMap_tlv {x : Element} {xs : List Element} (hx : x ∈ xs) :
    x.2.length + 2 ≤ (xs.flatMap tlv).length := by
  rcases List.append_of_mem hx with ⟨front, back, rfl⟩
  have htwo := length_tlv x
  rw [List.flatMap_append, List.flatMap_cons, List.length_append, List.length_append]
  omega

/-- In a TBSCertificate of less than four gibibytes no length takes more than
    four bytes. -/
theorem checkPssKeyRestrictions_iff_lowTag (tbsCertificateBytes : Bytes)
    (hlen : tbsCertificateBytes.length < 2 ^ 32) :
    checkPssKeyRestrictions tbsCertificateBytes = .ok () ↔ PssKey LowTag tbsCertificateBytes := by
  have hK : Transfers LowTag Encodable fun b => b.length < 2 ^ 32 := by
    rintro encoded xs hencoded ⟨hlow, rfl⟩
    have hin : ∀ x ∈ xs, x.2.length < 2 ^ 32 := fun x hx =>
      Nat.lt_of_le_of_lt ((Nat.le_add_right _ 2).trans (length_le_flatMap_tlv hx)) hencoded
    exact ⟨⟨fun x hx => ⟨hlow x hx, hin x hx⟩, rfl⟩, hin⟩
  rw [(checkPssKeyRestrictions_iff tbsCertificateBytes).1]
  exact ⟨PssKey.lowTag, PssKey.transfer hK hlen⟩

/-- A SubjectPublicKeyInfo for id-RSASSA-PSS without parameters. -/
def spkiOf (bits : Bytes) : Bytes :=
  [(0x30, tlv (0x06, rsassaPssOidDer)), (0x03, bits)].flatMap tlv

/-- A TBSCertificate with a serial number, four empty fields and such a key. -/
def tbsOf (bits : Bytes) : Bytes :=
  tlv (0x30, [(0x02, [0x01]), (0x30, []), (0x30, []), (0x30, []), (0x30, []),
    (0x30, spkiOf bits)].flatMap tlv)

theorem complete_singleton (P : Element → Prop) (x : Element) (hx : P x) :
    Complete P (tlv x) [x] := by
  refine ⟨fun y hy => ?_, (List.flatMap_singleton tlv x).symm⟩
  rw [List.mem_singleton.mp hy]
  exact hx

theorem lowTag_of {tag : UInt8} (h : tag &&& 0x1F ≠ 0x1F) (value : Bytes) : LowTag (tag, value) :=
  h

theorem pssKey_tbsOf (bits : Bytes) : PssKey LowTag (tbsOf bits) := by
  have hsequence : ∀ value, LowTag (0x30, value) := lowTag_of (by decide)
  refine ⟨_, spkiOf bits, tlv (0x06, rsassaPssOidDer), bits, [],
    ⟨_, complete_singleton LowTag _ (hsequence _), ?_, rfl⟩, rfl, ⟨?_, rfl⟩,
    complete_singleton LowTag _ (lowTag_of (by decide) _), Or.inl rfl⟩
  · simp only [List.forall_mem_cons, List.not_mem_nil, false_implies, implies_true, and_true,
      hsequence]
    exact lowTag_of (by decide) _
  · simp only [List.forall_mem_cons, List.not_mem_nil, false_implies, implies_true, and_true,
      hsequence, true_and]
    exact lowTag_of (by decide) _

/-- What the program accepts is one element whose length takes four bytes at
    most. -/
theorem length_of_pssKey {tbsCertificateBytes : Bytes}
    (h : PssKey Encodable tbsCertificateBytes) : tbsCertificateBytes.length < 2 ^ 32 + 6 := by
  rcases h with ⟨tbs, spki, algorithm, bits, parameters, ⟨value, ⟨hable, rfl⟩, -⟩, -⟩
  have hvalue : value.length < 2 ^ 32 := (hable _ List.mem_cons_self).2
  rw [List.flatMap_singleton]
  have hlen : (tlv (0x30, value)).length ≤ value.length + 4 + 2 := length_tlv_le _ 4 hvalue
  omega

theorem le_length_tbsOf (bits : Bytes) : bits.length + 6 ≤ (tbsOf bits).length := by
  have hbits : bits.length + 2 ≤ (spkiOf bits).length :=
    length_le_flatMap_tlv (x := (0x03, bits)) (List.mem_cons_of_mem _ List.mem_cons_self)
  have hspki : (spkiOf bits).length + 2 ≤ (List.flatMap tlv [(0x02, [0x01]), (0x30, []),
      (0x30, []), (0x30, []), (0x30, []), (0x30, spkiOf bits)]).length :=
    length_le_flatMap_tlv (x := (0x30, spkiOf bits)) (by simp only [List.mem_cons, true_or, or_true])
  have htbs : _ ≤ (tbsOf bits).length := length_tlv _
  simp only at htbs
  omega

/-- A key whose BIT STRING takes four gibibytes is an id-RSASSA-PSS key without
    parameters, with minimal lengths throughout, and is refused. -/
theorem checkPssKeyRestrictions_huge :
    PssKey LowTag (tbsOf (List.replicate (2 ^ 32) 0)) ∧
      checkPssKeyRestrictions (tbsOf (List.replicate (2 ^ 32) 0)) ≠ .ok () := by
  refine ⟨pssKey_tbsOf _, fun h => ?_⟩
  have hshort := length_of_pssKey ((checkPssKeyRestrictions_iff _).1.mp h)
  have hlong := le_length_tbsOf (List.replicate (2 ^ 32) 0)
  rw [List.length_replicate] at hlong
  omega

end Der

end P2CTools
