import Gateway.Redis.Keys
import Gateway.Routing.Abilities
import Gateway.Util.Text

/-!
The keys under which lookups are cached.

A segment of a key is a text cut short of which some characters are replaced, and it
has no separator. Two keys are equal when their segments are; two segments are
equal when the texts differ in replaced characters only, or too late to be seen.
-/

namespace Gateway

section Names

/-- The UTF-16 code units of a character; the values of a pair are told apart as in the text. -/
def codeUnits (c : Char) : List Nat :=
  if c.val.toNat < 0x10000 then [c.val.toNat]
  else [0xD800 + (c.val.toNat - 0x10000) / 0x400, 0xDC00 + (c.val.toNat - 0x10000) % 0x400]

/-- The units that are in a key as they are in the name, and that stand for nothing else. -/
def KeptUnit (u : Nat) : Prop :=
  u < 128 ∧ ((Char.ofNat u).isAlphanum = true ∨ Char.ofNat u = '.' ∨ Char.ofNat u = '-' ∨
    Char.ofNat u = '*')

/-- Two units that are not told apart. -/
def Alike (u v : Nat) : Prop := u = v ∨ ¬ KeptUnit u ∧ ¬ KeptUnit v

/-- Two names that differ in replaced units only, as far as the first 128 units go. -/
def Merged (name name' : String) : Prop :=
  List.Forall₂ Alike ((name.toList.flatMap codeUnits).take 128)
    ((name'.toList.flatMap codeUnits).take 128)

instance (u : Nat) : Decidable (KeptUnit u) :=
  inferInstanceAs (Decidable (u < 128 ∧ ((Char.ofNat u).isAlphanum = true ∨
    Char.ofNat u = '.' ∨ Char.ofNat u = '-' ∨ Char.ofNat u = '*')))

instance (u v : Nat) : Decidable (Alike u v) :=
  inferInstanceAs (Decidable (u = v ∨ ¬ KeptUnit u ∧ ¬ KeptUnit v))

instance (name name' : String) : Decidable (Merged name name') :=
  inferInstanceAs (Decidable (List.Forall₂ Alike _ _))

end Names

section Segments

/-- What is written for a unit. -/
def segUnit (u : Nat) : Char := if KeptUnit u then Char.ofNat u else '_'

theorem segChar_eq (c : Char) : segChar c = (codeUnits c).map segUnit := by
  by_cases ascii : c.toNat < 128
  · have all : ∀ n : Fin 128, segChar (Char.ofNat n) = (codeUnits (Char.ofNat n)).map segUnit := by
      decide +kernel
    have char : Char.ofNat c.toNat = c := Char.ofNat_toNat c
    have here := all ⟨c.toNat, ascii⟩
    dsimp only at here
    rwa [char] at here
  · have high : ¬ c.val.toNat < 128 := ascii
    have replaced {u : Nat} (large : 128 ≤ u) : segUnit u = '_' :=
      if_neg fun kept => absurd kept.1 (not_lt.mpr large)
    have other (d : Char) (small : d.val.toNat < 128) : (c == d) = false := by
      rw [beq_eq_false_iff_ne]
      rintro rfl
      exact high small
    have letter : c.isAlphanum = false :=
      Bool.eq_false_iff.mpr fun letter => high (small_of_isAlphanum letter)
    rw [segChar, letter, other '_' (by decide), other '.' (by decide), other '-' (by decide),
      other '*' (by decide), codeUnits]
    by_cases one : c.val.toNat < 0x10000
    · rw [if_pos one, if_pos one, List.map_singleton, replaced (not_lt.mp high)]
      rfl
    · rw [if_neg one, if_neg one, List.map_cons, List.map_singleton, replaced (by omega),
        replaced (by omega)]
      rfl

theorem seg_toList (name : String) :
    (seg name).toList = ((name.toList.flatMap codeUnits).take 128).map segUnit := by
  rw [seg, String.toList_ofList, List.map_take, List.map_flatMap]
  congr 2
  funext c
  exact segChar_eq c

theorem KeptUnit.ne_underscore {u : Nat} (h : KeptUnit u) : Char.ofNat u ≠ '_' := by
  have all : ∀ n : Fin 128, KeptUnit n → Char.ofNat n ≠ '_' := by decide +kernel
  exact all ⟨u, h.1⟩ h

theorem KeptUnit.toNat {u : Nat} (h : KeptUnit u) : (Char.ofNat u).toNat = u := by
  have all : ∀ n : Fin 128, (Char.ofNat n).toNat = n := by decide +kernel
  exact all ⟨u, h.1⟩

/-- Units are written as one character when they are not told apart. -/
theorem segUnit_eq_iff (u v : Nat) : segUnit u = segUnit v ↔ Alike u v := by
  rw [segUnit, segUnit, Alike]
  by_cases hu : KeptUnit u
  · rw [if_pos hu]
    by_cases hv : KeptUnit v
    · rw [if_pos hv]
      constructor
      · intro same
        rw [← hu.toNat, ← hv.toNat, same]
        exact .inl rfl
      · rintro (rfl | ⟨other, -⟩)
        · rfl
        · exact absurd hu other
    · rw [if_neg hv]
      constructor
      · exact fun same => absurd same hu.ne_underscore
      · rintro (rfl | ⟨other, -⟩)
        · exact absurd hu hv
        · exact absurd hu other
  · rw [if_neg hu]
    by_cases hv : KeptUnit v
    · rw [if_pos hv]
      constructor
      · exact fun same => absurd same.symm hv.ne_underscore
      · rintro (rfl | ⟨-, other⟩)
        · exact absurd hv hu
        · exact absurd hv other
    · rw [if_neg hv]
      exact ⟨fun _ => .inr ⟨hu, hv⟩, fun _ => rfl⟩

theorem map_eq_map_iff {α β : Type} {f : α → β} {xs ys : List α} :
    xs.map f = ys.map f ↔ List.Forall₂ (fun x y => f x = f y) xs ys := by
  rw [← List.forall₂_eq_eq_eq, List.forall₂_map_left_iff, List.forall₂_map_right_iff]

/-- Segments are equal when the names are merged. -/
theorem seg_eq_iff (name name' : String) : seg name = seg name' ↔ Merged name name' := by
  rw [← String.toList_inj, seg_toList, seg_toList, map_eq_map_iff, Merged]
  simp only [segUnit_eq_iff]

theorem seg_no_colon (name : String) : ':' ∉ (seg name).toList := by
  rw [seg_toList]
  intro mem
  obtain ⟨u, -, same⟩ := List.mem_map.mp mem
  rw [segUnit] at same
  split at same
  · next kept =>
      have all : ∀ n : Fin 128, KeptUnit n → Char.ofNat n ≠ ':' := by decide +kernel
      exact all ⟨u, kept.1⟩ kept same
  · exact absurd same (by decide)

end Segments

section Keys

/-- Texts without the separator are found again in what they are joined to. -/
theorem intercalate_colon_injective {parts parts' : List (List Char)}
    (absent : ∀ part ∈ parts, ':' ∉ part) (absent' : ∀ part ∈ parts', ':' ∉ part)
    (more : parts ≠ []) (more' : parts' ≠ [])
    (same : [':'].intercalate parts = [':'].intercalate parts') : parts = parts' := by
  rw [← List.splitOn_intercalate ':' absent more, same, List.splitOn_intercalate ':' absent' more']

/-- The segments of two equal keys are equal. -/
theorem segs_injective {kind : List Char} {first second first' second' : String}
    {tail tail' : List (List Char)} (kindPlain : ':' ∉ kind) (plain : ∀ part ∈ tail, ':' ∉ part)
    (plain' : ∀ part ∈ tail', ':' ∉ part)
    (same : [':'].intercalate (kind :: (seg first).toList :: (seg second).toList :: tail) =
      [':'].intercalate (kind :: (seg first').toList :: (seg second').toList :: tail')) :
    seg first = seg first' ∧ seg second = seg second' := by
  have absent {x y : String} {rest : List (List Char)} (plain : ∀ part ∈ rest, ':' ∉ part) :
      ∀ part ∈ kind :: (seg x).toList :: (seg y).toList :: rest, ':' ∉ part :=
    List.forall_mem_cons.mpr ⟨kindPlain, List.forall_mem_cons.mpr ⟨seg_no_colon x,
      List.forall_mem_cons.mpr ⟨seg_no_colon y, plain⟩⟩⟩
  have parts := intercalate_colon_injective (absent plain) (absent plain')
    (List.cons_ne_nil _ _) (List.cons_ne_nil _ _) same
  injection parts with _ rest
  injection rest with first_eq rest
  injection rest with second_eq _
  exact ⟨String.toList_inj.mp first_eq, String.toList_inj.mp second_eq⟩

theorem abilityKey_toList (group model : String) :
    (abilityKey group model).toList =
      [':'].intercalate ["ab".toList, (seg group).toList, (seg model).toList] := by
  simp [abilityKey]

theorem affinityKey_toList (rule hash : String) :
    (affinityKey rule hash).toList =
      [':'].intercalate ["aff".toList, (seg rule).toList, (seg hash).toList] := by
  simp [affinityKey]

theorem abilityKey_eq_iff (group model group' model' : String) :
    abilityKey group model = abilityKey group' model' ↔
      Merged group group' ∧ Merged model model' := by
  rw [← seg_eq_iff, ← seg_eq_iff]
  constructor
  · intro same
    have chars := congrArg String.toList same
    rw [abilityKey_toList, abilityKey_toList] at chars
    exact segs_injective (by decide) (by simp) (by simp) chars
  · rintro ⟨first, second⟩
    rw [abilityKey, abilityKey, first, second]

theorem affinityKey_eq_iff (rule hash rule' hash' : String) :
    affinityKey rule hash = affinityKey rule' hash' ↔ Merged rule rule' ∧ Merged hash hash' := by
  rw [← seg_eq_iff, ← seg_eq_iff]
  constructor
  · intro same
    have chars := congrArg String.toList same
    rw [affinityKey_toList, affinityKey_toList] at chars
    exact segs_injective (by decide) (by simp) (by simp) chars
  · rintro ⟨first, second⟩
    rw [affinityKey, affinityKey, first, second]

end Keys

section Cache

def affinityRule (group model : String) : String := group ++ "/" ++ model

/-- The key of the candidates of a pair, as of a generation of the table. -/
def candidatesKey (group model : String) (generation : Nat) : String :=
  abilityKey group model ++ ":g" ++ toString generation

/-- A lookup of candidates through a cache. -/
def cachedCandidates (cache : String → Option (List Candidate)) (generation : Nat)
    (stores : AbilityStores) (group model : String) : List Candidate :=
  candidatesFor { stores with cached := cache (candidatesKey group model generation) } group model

def readAffinity (pins : String → Option String) (group model hash : String) : Option String :=
  (pins (affinityKey (affinityRule group model) hash)).filter (· ≠ "")

/-- A store in which a key is written. -/
def put {α : Type} (store : String → Option α) (key : String) (value : α) : String → Option α :=
  fun other => if other = key then some value else store other

/-- The keys of two pairs are different, and what is cached for one is not read for the other. -/
structure CandidatesApart (group model group' model' : String) : Prop where
  keys : abilityKey group model ≠ abilityKey group' model'
  reads : ∀ cache entry generation generation' stores,
    cachedCandidates (put cache (candidatesKey group' model' generation') entry) generation stores
      group model = cachedCandidates cache generation stores group model

/-- The keys of two pins are different, and one is not read for the other. -/
structure AffinityApart (group model hash group' model' hash' : String) : Prop where
  keys : affinityKey (affinityRule group model) hash ≠
    affinityKey (affinityRule group' model') hash'
  reads : ∀ pins channelId,
    readAffinity (put pins (affinityKey (affinityRule group' model') hash') channelId)
      group model hash = readAffinity pins group model hash

theorem put_other {α : Type} (store : String → Option α) {key other : String} (value : α)
    (differs : other ≠ key) : put store key value other = store other := if_neg differs

theorem candidatesKey_toList (group model : String) (generation : Nat) :
    (candidatesKey group model generation).toList =
      [':'].intercalate ["ab".toList, (seg group).toList, (seg model).toList,
        'g' :: Nat.toDigits 10 generation] := by
  simp [candidatesKey, abilityKey]

/-- The keys of candidates are equal for equal keys of the pair only, whatever the generations. -/
theorem abilityKey_of_candidatesKey {group model group' model' : String}
    {generation generation' : Nat}
    (same : candidatesKey group model generation = candidatesKey group' model' generation') :
    abilityKey group model = abilityKey group' model' := by
  have plain (n : Nat) : ∀ part ∈ ['g' :: Nat.toDigits 10 n], ':' ∉ part := by
    refine List.forall_mem_singleton.mpr fun mem => ?_
    rcases List.mem_cons.mp mem with letter | digit
    · cases letter
    · have digits := Nat.isDigit_of_mem_toDigits (by decide) (by decide) digit
      exact absurd digits (by decide)
  have chars := congrArg String.toList same
  rw [candidatesKey_toList, candidatesKey_toList] at chars
  obtain ⟨first, second⟩ := segs_injective (by decide) (plain generation) (plain generation') chars
  rw [abilityKey, abilityKey, first, second]

theorem cache_keys_apart_iff (group model hash group' model' hash' : String) :
    (((group, model) ≠ (group', model') → CandidatesApart group model group' model') ↔
      ((group, model) ≠ (group', model') → ¬ (Merged group group' ∧ Merged model model'))) ∧
    (((group, model, hash) ≠ (group', model', hash') →
        AffinityApart group model hash group' model' hash') ↔
      ((group, model, hash) ≠ (group', model', hash') →
        ¬ (Merged (affinityRule group model) (affinityRule group' model') ∧
          Merged hash hash'))) := by
  refine ⟨imp_congr_right fun _ => ⟨fun apart merged => ?_, fun told => ?_⟩,
    imp_congr_right fun _ => ⟨fun apart merged => ?_, fun told => ?_⟩⟩
  · exact apart.keys ((abilityKey_eq_iff _ _ _ _).mpr merged)
  · have keys : abilityKey group model ≠ abilityKey group' model' := fun same =>
      told ((abilityKey_eq_iff _ _ _ _).mp same)
    refine ⟨keys, fun cache entry generation generation' stores => ?_⟩
    have other : candidatesKey group model generation ≠ candidatesKey group' model' generation' :=
      fun same => keys (abilityKey_of_candidatesKey same)
    rw [cachedCandidates, put_other cache entry other]
    rfl
  · exact apart.keys ((affinityKey_eq_iff _ _ _ _).mpr merged)
  · have keys : affinityKey (affinityRule group model) hash ≠
        affinityKey (affinityRule group' model') hash' := fun same =>
      told ((affinityKey_eq_iff _ _ _ _).mp same)
    refine ⟨keys, fun pins channelId => ?_⟩
    rw [readAffinity, put_other pins channelId keys]
    rfl

theorem cache_keys_collide :
    ¬ ∀ group model hash group' model' hash' : String,
      ((group, model) ≠ (group', model') → CandidatesApart group model group' model') ∧
        ((group, model, hash) ≠ (group', model', hash') →
          AffinityApart group model hash group' model' hash') := by
  intro apart
  have keys := ((apart "default" "meta/llama" "" "default" "meta_llama" "").1 (by decide)).keys
  exact keys (by decide +kernel)

end Cache

end Gateway
