import ApiSurface.Model.Availability
import Mathlib.Data.Finset.Card
import Mathlib.Data.List.Induction

/-!
# Statements that are missing

Extending some statements by others looks at one statement after the other. Which statements
it appends can be said of all others at once: those about a domain that neither the known
statements mention nor an earlier one of the others. In this form extending by some
statements and then by more is extending by all of them together.

## Main results

* `Availability.novel`: the statements that are appended; `Availability.extendMissing_eq`.
* `Availability.novel_append`: extending in two steps.
* `Availability.novel_eq_nil_iff`: when nothing is appended.
* `Availability.foldl_appendMissing`: the loop that extends and counts in one pass.
* `Availability.find?_extendMissing`: which statement about a domain comes first.
* `Availability.length_novel`: as many are appended as there are domains not mentioned before.
* `Availability.isExtension`: all that extending does.
-/

namespace ApiSurface.Availability

/-- The statements about domains that are mentioned neither by the known ones nor by an
earlier one of those offered. -/
def novel (known offered : Availability) : Availability :=
  (offered.zipIdx.filter fun (item, place) =>
    !containsDomain known item.domain &&
      !containsDomain (offered.take place) item.domain).map Prod.fst

theorem containsDomain_nil (domain : Option String) : containsDomain [] domain = false := rfl

theorem containsDomain_cons (item : AvailabilityItem) (items : Availability)
    (domain : Option String) :
    containsDomain (item :: items) domain =
      (item.domain == domain || containsDomain items domain) := rfl

theorem containsDomain_append (items others : Availability) (domain : Option String) :
    containsDomain (items ++ others) domain =
      (containsDomain items domain || containsDomain others domain) := by
  rw [containsDomain, containsDomain, containsDomain, List.any_append]

/-- What is offered last is novel if neither the known statements nor the others offered
mention its domain. -/
theorem novel_concat (known offered : Availability) (item : AvailabilityItem) :
    novel known (offered ++ [item]) = novel known offered ++
      if containsDomain known item.domain || containsDomain offered item.domain then []
      else [item] := by
  rw [novel, List.zipIdx_append, List.filter_append, List.map_append]
  congr 1
  · rw [novel]
    congr 1
    refine List.filter_congr ?_
    rintro ⟨other, place⟩ hmem
    have hplace : place ≤ offered.length := Nat.le_of_lt (List.snd_lt_of_mem_zipIdx hmem)
    simp only [List.take_append_of_le_length hplace]
  · cases hknown : containsDomain known item.domain <;>
      cases hoffered : containsDomain offered item.domain <;> simp [hknown, hoffered]

/-- Extending by some statements and then by more. -/
theorem extendMissing_append (known offered more : Availability) :
    extendMissing known (offered ++ more) =
      extendMissing (extendMissing known offered) more := by
  induction offered generalizing known with
  | nil => rfl
  | cons item offered ih =>
    rw [List.cons_append, extendMissing, extendMissing]
    split
    · exact ih known
    · exact ih (known ++ [item])

/-- Extending by one statement. -/
theorem extendMissing_singleton (known : Availability) (item : AvailabilityItem) :
    extendMissing known [item] =
      known ++ if containsDomain known item.domain then [] else [item] := by
  rw [extendMissing]
  split
  · rw [extendMissing, List.append_nil]
  · rw [extendMissing]

/-- The domains mentioned after extending are those of the known statements and of
those offered. -/
theorem containsDomain_extendMissing (known offered : Availability) (domain : Option String) :
    containsDomain (extendMissing known offered) domain =
      (containsDomain known domain || containsDomain offered domain) := by
  induction offered generalizing known with
  | nil => rw [extendMissing, containsDomain_nil, Bool.or_false]
  | cons item offered ih =>
    rw [extendMissing, containsDomain_cons]
    split
    · next hknown =>
      rw [ih known]
      by_cases hdomain : item.domain = domain
      · rw [← hdomain, hknown, Bool.true_or, Bool.true_or]
      · rw [beq_false_of_ne hdomain, Bool.false_or]
    · rw [ih (known ++ [item]), containsDomain_append, containsDomain_cons, containsDomain_nil,
        Bool.or_false, Bool.or_assoc]

/-- **Missing statements.** Extending appends the novel statements of those offered. -/
theorem extendMissing_eq (known offered : Availability) :
    extendMissing known offered = known ++ novel known offered := by
  induction offered using List.reverseRecOn with
  | nil => simp [extendMissing, novel]
  | append_singleton offered item ih =>
    rw [extendMissing_append, extendMissing_singleton, containsDomain_extendMissing,
      novel_concat, ih, List.append_assoc]

/-- As many statements are appended as are novel. -/
theorem missingCount_eq (known offered : Availability) :
    missingCount known offered = (novel known offered).length := by
  rw [missingCount, extendMissing_eq, List.length_append, Nat.add_sub_cancel_left]

/-- What is novel of some statements and more is what is novel of the first, and then
of the others. -/
theorem novel_append (known offered more : Availability) :
    novel known (offered ++ more) =
      novel known offered ++ novel (known ++ novel known offered) more := by
  have h := extendMissing_append known offered more
  rw [extendMissing_eq, extendMissing_eq, extendMissing_eq, List.append_assoc] at h
  exact List.append_cancel_left h

/-- Nothing is novel exactly if the known statements mention all domains that are offered. -/
theorem novel_eq_nil_iff {known offered : Availability} :
    novel known offered = [] ↔ ∀ item ∈ offered, containsDomain known item.domain = true := by
  induction offered using List.reverseRecOn with
  | nil => exact iff_of_true rfl fun _ hitem => absurd hitem List.not_mem_nil
  | append_singleton offered item ih =>
    rw [novel_concat, List.append_eq_nil_iff, ih, List.forall_mem_append,
      List.forall_mem_singleton]
    refine and_congr_right fun hoffered => ?_
    have hknown :
        containsDomain offered item.domain = true →
          containsDomain known item.domain = true := by
      intro hcontains
      obtain ⟨other, hother, hdomain⟩ := List.any_eq_true.mp hcontains
      rw [← beq_iff_eq.mp hdomain]
      exact hoffered other hother
    rw [ite_eq_left_iff, Bool.not_eq_true, Bool.or_eq_false_iff]
    cases hitem : containsDomain known item.domain with
    | true => exact iff_of_true nofun rfl
    | false => simp_all

/-! ### Extending and counting in one pass -/

/-- One turn of the loop that looks at the statements offered, with the number of those
appended so far. -/
def appendMissing (state : Availability × Nat) (item : AvailabilityItem) :
    Availability × Nat :=
  if containsDomain state.1 item.domain then state else (state.1 ++ [item], state.2 + 1)

/-- A turn of the loop, from where the turns before it have led to. -/
theorem appendMissing_extendMissing (known offered : Availability) (item : AvailabilityItem) :
    appendMissing (extendMissing known offered, missingCount known offered) item =
      (extendMissing known (offered ++ [item]), missingCount known (offered ++ [item])) := by
  rw [missingCount_eq, missingCount_eq, novel_concat, extendMissing_append,
    extendMissing_singleton, ← containsDomain_extendMissing, appendMissing]
  cases containsDomain (extendMissing known offered) item.domain with
  | true => simp
  | false => simp

/-- The whole loop. -/
theorem foldl_appendMissing (known offered : Availability) :
    offered.foldl appendMissing (known, 0) =
      (extendMissing known offered, missingCount known offered) := by
  induction offered using List.reverseRecOn with
  | nil => simp [extendMissing, missingCount]
  | append_singleton offered item ih =>
    rw [List.foldl_append, ih, List.foldl_cons, List.foldl_nil, appendMissing_extendMissing]

/-! ### Domains -/

/-- The domains that statements are about, no domain in particular being one of them. -/
def domains (items : Availability) : List (Option String) := items.map AvailabilityItem.domain

/-- The first statement about a domain, or about none. -/
def first? (items : Availability) (domain : Option String) : Option AvailabilityItem :=
  List.find? (fun item => item.domain == domain) items

theorem containsDomain_iff {items : Availability} {domain : Option String} :
    containsDomain items domain = true ↔ domain ∈ items.domains := by
  simp [containsDomain, domains]

theorem domains_append (items others : Availability) :
    domains (items ++ others) = items.domains ++ others.domains :=
  List.map_append

/-- The domains mentioned after extending, as a set. -/
theorem mem_domains_extendMissing {known offered : Availability} {domain : Option String} :
    domain ∈ (extendMissing known offered).domains ↔
      domain ∈ known.domains ∨ domain ∈ offered.domains := by
  rw [← containsDomain_iff, containsDomain_extendMissing, Bool.or_eq_true, containsDomain_iff,
    containsDomain_iff]

/-- There is a first statement about a domain if there is any. -/
theorem first?_eq_none_iff {items : Availability} {domain : Option String} :
    first? items domain = none ↔ containsDomain items domain = false := by
  rw [first?, List.find?_eq_none, containsDomain, List.any_eq_false]

theorem first?_append (items others : Availability) (domain : Option String) :
    first? (items ++ others) domain = (items.first? domain).or (others.first? domain) :=
  List.find?_append

/-- The first statement about a domain is a known one if there is any, and else the first
one offered. -/
theorem first?_extendMissing (known offered : Availability) (domain : Option String) :
    first? (extendMissing known offered) domain =
      (known.first? domain).or (offered.first? domain) := by
  induction offered using List.reverseRecOn with
  | nil => simp [extendMissing, first?]
  | append_singleton offered item ih =>
    rw [extendMissing_append, extendMissing_singleton, first?_append, ih, first?_append,
      Option.or_assoc]
    -- If the item's domain is mentioned already, then so is the one asked for unless the
    -- item is about another one, and in both cases the item is not the first.
    split
    case isFalse => rfl
    case isTrue hmentioned =>
      by_cases hdomain : item.domain = domain
      · rw [hdomain, ← Bool.not_eq_false, ← first?_eq_none_iff, ih] at hmentioned
        obtain ⟨found, hfound⟩ := Option.ne_none_iff_exists'.mp hmentioned
        rw [← Option.or_assoc, ← Option.or_assoc, hfound]
        rfl
      · have hother : first? [item] domain = none := by simp [first?, hdomain]
        rw [hother]
        rfl

/-- The first statement about a domain after extending, as it is looked up. -/
theorem find?_extendMissing (known offered : Availability) (domain : String) :
    find? (extendMissing known offered) domain =
      (known.find? domain).or (offered.find? domain) :=
  first?_extendMissing known offered (some domain)

/-! ### The number of novel statements -/

/-- Statements are novel about the domains that are offered but not known. -/
theorem mem_domains_novel {known offered : Availability} {domain : Option String} :
    domain ∈ (novel known offered).domains ↔ domain ∈ offered.domains ∧
      domain ∉ known.domains := by
  induction offered using List.reverseRecOn with
  | nil => simp [novel, domains]
  | append_singleton offered item ih =>
    rw [novel_concat, domains_append, domains_append, List.mem_append, List.mem_append, ih]
    have hitem : domain ∈ domains [item] ↔ domain = item.domain := List.mem_singleton
    split
    case isTrue hmentioned =>
      rw [Bool.or_eq_true, containsDomain_iff, containsDomain_iff] at hmentioned
      have hnone : domain ∉ domains [] := List.not_mem_nil
      grind
    case isFalse hmissing =>
      rw [Bool.or_eq_true, containsDomain_iff, containsDomain_iff] at hmissing
      grind

/-- No two novel statements are about the same domain. -/
theorem nodup_domains_novel (known offered : Availability) :
    (novel known offered).domains.Nodup := by
  induction offered using List.reverseRecOn with
  | nil => exact List.nodup_nil
  | append_singleton offered item ih =>
    rw [novel_concat, domains_append]
    split
    case isTrue => rwa [domains, domains, List.map_nil, List.append_nil]
    case isFalse hmissing =>
      refine ih.append (List.nodup_singleton _) (List.disjoint_singleton.mpr fun hmem =>
        hmissing ?_)
      rw [Bool.or_eq_true, containsDomain_iff, containsDomain_iff]
      exact .inr (mem_domains_novel.mp hmem).1

/-- There are as many novel statements as domains offered that are not known. -/
theorem length_novel (known offered : Availability) :
    (novel known offered).length =
      (offered.domains.toFinset \ known.domains.toFinset).card := by
  have hdomains : (novel known offered).domains.toFinset =
      offered.domains.toFinset \ known.domains.toFinset := by
    ext domain
    rw [Finset.mem_sdiff, List.mem_toFinset, List.mem_toFinset, List.mem_toFinset,
      mem_domains_novel]
  rw [← hdomains, List.toFinset_card_of_nodup (nodup_domains_novel known offered), domains,
    List.length_map]

/-! ### All that extending does -/

/-- Extending by statements about domains that are all mentioned appends none. -/
theorem extendMissing_of_contains {known offered : Availability}
    (h : ∀ item ∈ offered, containsDomain known item.domain = true) :
    extendMissing known offered = known ∧ missingCount known offered = 0 := by
  rw [extendMissing_eq, missingCount_eq, novel_eq_nil_iff.mpr h, List.append_nil]
  exact ⟨rfl, rfl⟩

/-- `extended` is what the statements `known` become when those of `offered` are appended,
`count` in number, that are about domains not mentioned yet. -/
structure IsExtension (known offered extended : Availability) (count : Nat) : Prop where
  /-- It is the result of the loop that looks at the statements offered one by one. -/
  looped : offered.foldl appendMissing (known, 0) = (extended, count)
  /-- The first statements offered about each domain that is not known come after
  those known. -/
  appended : extended = known ++ novel known offered
  /-- The number is that of the domains offered which are not known. -/
  counted : count = (offered.domains.toFinset \ known.domains.toFinset).card
  /-- The domains are those known and those offered. -/
  united : extended.domains.toFinset = known.domains.toFinset ∪ offered.domains.toFinset
  /-- The first statement about a domain, or about none, is a known one if there is any. -/
  first : ∀ domain, first? extended domain = (first? known domain).or (first? offered domain)
  /-- The same for the statement that looking a domain up gives. -/
  found : ∀ domain, find? extended domain = (find? known domain).or (find? offered domain)
  /-- Extending by the same statements again changes nothing. -/
  again : extendMissing extended offered = extended ∧ missingCount extended offered = 0
  /-- Nor does extending by any others about domains that are all mentioned. -/
  closed : ∀ others : Availability, (∀ item ∈ others, containsDomain extended item.domain =
    true) → extendMissing extended others = extended ∧ missingCount extended others = 0

/-- **Extending by what is missing**, for any statements, which may repeat domains or
be about none. -/
theorem isExtension (known offered : Availability) :
    IsExtension known offered (extendMissing known offered) (missingCount known offered) where
  looped := foldl_appendMissing known offered
  appended := extendMissing_eq known offered
  counted := (missingCount_eq known offered).trans (length_novel known offered)
  united := by
    ext domain
    rw [Finset.mem_union, List.mem_toFinset, List.mem_toFinset, List.mem_toFinset,
      mem_domains_extendMissing]
  first := first?_extendMissing known offered
  found := find?_extendMissing known offered
  again := by
    refine extendMissing_of_contains fun item hitem => ?_
    rw [containsDomain_iff, mem_domains_extendMissing]
    exact .inr (List.mem_map_of_mem hitem)
  closed _ := extendMissing_of_contains

end ApiSurface.Availability
