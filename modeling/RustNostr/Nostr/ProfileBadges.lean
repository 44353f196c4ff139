import Mathlib
import RustNostr.Library.Alignment
import RustNostr.Nostr.Comment

/-!
# Profile badges

The badges that a profile shows, from definitions and awards (`nostr/src/nips/nip58.rs`),
with the tags they are read from (`nostr/src/nips/nip01/tags.rs`).
-/

set_option autoImplicit false

namespace RustNostr

open Library

def Kind.badgeAward : Kind := .custom 8

def Kind.badgeDefinition : Kind := .custom 30009

inductive Nip01Tag (crate : UrlCrate) where
  | coordinate (coordinate : Coordinate) (relayHint : Option (FullRelayUrl crate))
  | event (id : EventId) (relayHint : Option (FullRelayUrl crate)) (publicKey : Option PublicKey)
  | identifier (identifier : String)
  | publicKey (publicKey : PublicKey) (relayHint : Option (FullRelayUrl crate))

def Nip01Tag.parse (externals : Externals) (crate : UrlCrate) (tag : List String) :
    Except Error (Nip01Tag crate) :=
  match tag with
  | [] => .error .missingTagKind
  | "a" :: values =>
      (parseATag externals crate values).map fun (address, relayHint) => coordinate address relayHint
  | "e" :: values =>
      (parseETag externals crate values).map fun (id, relayHint, key) => event id relayHint key
  | "d" :: values => (takeString "identifier" values).map fun (value, _) => identifier value
  | "p" :: values => (parsePTag externals crate values).map fun (key, relayHint) => publicKey key relayHint
  | _ => .error .unknownTag

structure ProfileBadge (crate : UrlCrate) where
  definition : Coordinate
  definitionRelayHint : Option (FullRelayUrl crate)
  award : EventId
  awardRelayHint : Option (FullRelayUrl crate)

structure ProfileBadges (crate : UrlCrate) where
  badges : List (ProfileBadge crate)

/-- What is kept of an award. -/
structure NamedAward (crate : UrlCrate) where
  event : Event
  identifier : String
  definition : Coordinate
  definitionRelayHint : Option (FullRelayUrl crate)
  awardRelayHint : Option (FullRelayUrl crate)

def NamedAward.badge {crate : UrlCrate} (award : NamedAward crate) : ProfileBadge crate where
  definition := award.definition
  definitionRelayHint := award.definitionRelayHint
  award := award.event.id
  awardRelayHint := award.awardRelayHint

/-! ## Pairing -/

def filterForKind (events : List Event) (kindNeeded : Kind) : List Event :=
  events.filter fun event => event.kind == kindNeeded

variable {crate : UrlCrate} (externals : Externals)

def extractAwardedPublicKey (tags : List Tag) (awardedPublicKey : PublicKey) :
    Option (PublicKey × Option (FullRelayUrl crate)) :=
  tags.findSome? fun tag =>
    match Nip01Tag.parse externals crate tag.buf with
    | .ok (.publicKey publicKey relayHint) =>
        if publicKey = awardedPublicKey then some (publicKey, relayHint) else none
    | _ => none

def extractDefinition (tags : List Tag) : Option (Coordinate × Option (FullRelayUrl crate)) :=
  tags.findSome? fun tag =>
    match Nip01Tag.parse externals crate tag.buf with
    | .ok (.coordinate coordinate relayHint) => some (coordinate, relayHint)
    | _ => none

namespace ProfileBadges

def namedDefinition (event : Event) : Option (Event × String) := do
  let identifier ← Tags.identifier event.tags
  some (event, identifier)

def namedAward (awardedPublicKey : PublicKey) (event : Event) : Option (NamedAward crate) := do
  let (_, awardRelayHint) ← extractAwardedPublicKey externals event.tags awardedPublicKey
  let (definition, definitionRelayHint) ← extractDefinition externals event.tags
  some { event, identifier := definition.identifier, definition, definitionRelayHint, awardRelayHint }

/-- The loop over the pairs. -/
def pushBadge (badges : List (ProfileBadge crate)) (pair : (Event × String) × NamedAward crate) :
    Except Error (List (ProfileBadge crate)) :=
  if pair.1.2 ≠ pair.2.identifier then .error ⟨.invalid, "mismatched badge definition or award"⟩
  else .ok (badges ++ [pair.2.badge])

def new (badgeDefinitions badgeAwards : List Event) (awardedPublicKey : PublicKey) :
    Except Error (ProfileBadges crate) :=
  if badgeDefinitions.length ≠ badgeAwards.length then .error ⟨.invalid, "invalid length"⟩
  else
    let badgeAwards := filterForKind badgeAwards .badgeAward
    if badgeAwards.isEmpty then .error ⟨.missing, "badge awards are missing"⟩
    else if !badgeAwards.all fun award => (Tags.publicKeys externals award.tags).contains awardedPublicKey then
      .error ⟨.invalid, "badge award lacks awarded public key"⟩
    else
      let badgeDefinitions := filterForKind badgeDefinitions .badgeDefinition
      if badgeDefinitions.isEmpty then .error ⟨.missing, "badge definitions are missing"⟩
      else do
        let definitions := badgeDefinitions.filterMap namedDefinition
        let awards := badgeAwards.filterMap (namedAward externals awardedPublicKey)
        let badges ← (definitions.zip awards).foldlM pushBadge []
        .ok { badges }

/-! ## What is asked of the badges -/

/-- The coordinate of a badge definition. -/
def definitionCoordinate (event : Event) : Option Coordinate :=
  if event.kind == .badgeDefinition then
    (Tags.identifier event.tags).map fun identifier =>
      { kind := event.kind, publicKey := event.pubkey, identifier }
  else none

/-- A badge award of which the key and a coordinate can be read. -/
def readAward (awardedPublicKey : PublicKey) (event : Event) : Option (NamedAward crate) :=
  if event.kind == .badgeAward then namedAward externals awardedPublicKey event else none

section Supplied

variable (definitions awards : List Event) (awardedPublicKey : PublicKey)

structure Supplied (position : Nat) (definition award : Event) : Prop where
  definition : definitions[position]? = some definition
  award : awards[position]? = some award

/-- The award stands beside the definition that has the coordinate, is by its author and for the key. -/
def Beside (coordinate : Coordinate) (id : EventId) : Prop :=
  ∃ (position : Nat) (definition award : Event) (defined : Coordinate),
    Supplied definitions awards position definition award ∧ definitionCoordinate definition = some defined ∧
      (coordinate == defined) = true ∧ award.id = id ∧ award.pubkey = definition.pubkey ∧
      awardedPublicKey ∈ Tags.publicKeys externals award.tags

/-- A well-formed pair: the award names the definition that it stands beside, and is by its author. -/
structure Matching (crate : UrlCrate) (position : Nat) (award : Event) (coordinate : Coordinate) : Prop where
  supplied : ∃ definition, Supplied definitions awards position definition award ∧
    definitionCoordinate definition = some coordinate ∧ award.pubkey = definition.pubkey
  names : ∃ named : NamedAward crate, readAward externals awardedPublicKey award = some named ∧
    (named.definition == coordinate) = true

structure WellPaired (badges : List (ProfileBadge crate)) : Prop where
  rightful : ∀ badge ∈ badges, Beside externals definitions awards awardedPublicKey badge.definition badge.award
  complete : ∀ position award coordinate,
    Matching externals definitions awards awardedPublicKey crate position award coordinate →
      ∃ badge ∈ badges, (badge.definition == coordinate) = true ∧ badge.award = award.id

/-! ### The awards that are taken -/

/-- An award that can be read, while there are definitions left for it. -/
structure Taken (position : Nat) (award : Event) (named : NamedAward crate) : Prop where
  supplied : awards[position]? = some award
  read : readAward externals awardedPublicKey award = some named
  left : ((awards.take position).filterMap (@readAward crate externals awardedPublicKey)).length <
    (definitions.filterMap definitionCoordinate).length

/-- Whatever is taken stands beside the definition it names. -/
def NoneAstray (crate : UrlCrate) : Prop :=
  ∀ (position : Nat) (award : Event) (named : NamedAward crate),
    Taken externals definitions awards awardedPublicKey position award named →
      Beside externals definitions awards awardedPublicKey named.definition award.id

/-- Whatever matches is taken, there or where it is supplied again. -/
def NoneLate (crate : UrlCrate) : Prop :=
  ∀ position award coordinate,
    Matching externals definitions awards awardedPublicKey crate position award coordinate →
      ∃ (earlier : Nat) (other : Event) (named : NamedAward crate),
        Taken externals definitions awards awardedPublicKey earlier other named ∧
          (named.definition == coordinate) = true ∧ other.id = award.id

end Supplied

/-! ## What is paired -/

variable {externals}

theorem badges_of_foldlM {pairs : List ((Event × String) × NamedAward crate)} {earlier badges : List (ProfileBadge crate)}
    (pushed : pairs.foldlM pushBadge earlier = .ok badges) :
    badges = earlier ++ (pairs.map Prod.snd).map NamedAward.badge := by
  induction pairs generalizing earlier with
  | nil =>
      cases pushed
      simp
  | cons pair pairs ih =>
      rw [List.foldlM_cons] at pushed
      obtain ⟨next, step, rest⟩ := bind_ok.mp pushed
      unfold pushBadge at step
      split at step
      next => cases step
      next =>
        cases step
        rw [ih rest, List.map_cons, List.map_cons, List.append_assoc]
        rfl

theorem length_definitions (definitions : List Event) :
    ((filterForKind definitions .badgeDefinition).filterMap namedDefinition).length =
      (definitions.filterMap definitionCoordinate).length := by
  rw [filterForKind, List.filterMap_filter, List.length_filterMap_eq_countP, List.length_filterMap_eq_countP]
  refine List.countP_congr fun event _ => ?_
  unfold definitionCoordinate namedDefinition
  split
  next =>
    cases Tags.identifier event.tags with
    | none => rfl
    | some identifier => rfl
  next => rfl

theorem event_of_readAward {awardedPublicKey : PublicKey} {event : Event} {named : NamedAward crate}
    (read : readAward externals awardedPublicKey event = some named) : named.event = event := by
  unfold readAward at read
  split at read
  next =>
    obtain ⟨_, _, read⟩ := Option.bind_eq_some_iff.mp read
    obtain ⟨_, _, read⟩ := Option.bind_eq_some_iff.mp read
    cases read
    rfl
  next => cases read

section Created

variable {definitions awards : List Event} {awardedPublicKey : PublicKey} {badges : ProfileBadges crate}
    (created : new externals definitions awards awardedPublicKey = .ok badges)

include created

/-- The badges are the first awards that can be read, as many as there are definitions. -/
theorem new_ok : definitions.length = awards.length ∧
    badges.badges = ((awards.filterMap (readAward externals awardedPublicKey)).take
      (definitions.filterMap definitionCoordinate).length).map NamedAward.badge := by
  unfold new at created
  split at created
  next => cases created
  next same =>
    dsimp only at created
    split at created
    next => cases created
    next =>
      split at created
      next => cases created
      next =>
        split at created
        next => cases created
        next =>
          obtain ⟨pushed, loop, created⟩ := bind_ok.mp created
          cases created
          refine ⟨not_not.mp same, ?_⟩
          have paired := badges_of_foldlM loop
          rw [List.nil_append, map_snd_zip_eq_take, length_definitions] at paired
          rw [paired, filterForKind, List.filterMap_filter]
          rfl

theorem mem_badges_iff (badge : ProfileBadge crate) : badge ∈ badges.badges ↔
    ∃ (position : Nat) (award : Event) (named : NamedAward crate),
      Taken externals definitions awards awardedPublicKey position award named ∧ named.badge = badge := by
  rw [(new_ok created).2, List.mem_map]
  simp only [mem_take_filterMap]
  constructor
  · intro found
    obtain ⟨named, ⟨position, award, supplied, read, left⟩, same⟩ := found
    exact ⟨position, award, named, ⟨supplied, read, left⟩, same⟩
  · intro found
    obtain ⟨position, award, named, taken, same⟩ := found
    exact ⟨named, ⟨position, award, taken.supplied, taken.read, taken.left⟩, same⟩

theorem wellPaired_iff :
    WellPaired externals definitions awards awardedPublicKey badges.badges ↔
      NoneAstray externals definitions awards awardedPublicKey crate ∧
        NoneLate externals definitions awards awardedPublicKey crate := by
  constructor
  · intro paired
    refine ⟨fun position award named taken => ?_, fun position award coordinate pair => ?_⟩
    · have right := paired.rightful named.badge ((mem_badges_iff created _).mpr ⟨position, award, named, taken, rfl⟩)
      rw [← event_of_readAward taken.read]
      exact right
    · obtain ⟨badge, member, names, same⟩ := paired.complete position award coordinate pair
      obtain ⟨earlier, other, named, taken, shape⟩ := (mem_badges_iff created badge).mp member
      subst shape
      refine ⟨earlier, other, named, taken, names, ?_⟩
      rw [← event_of_readAward taken.read]
      exact same
  · intro found
    obtain ⟨astray, late⟩ := found
    refine ⟨fun badge member => ?_, fun position award coordinate pair => ?_⟩
    · obtain ⟨position, award, named, taken, shape⟩ := (mem_badges_iff created badge).mp member
      subst shape
      have right := astray position award named taken
      rw [← event_of_readAward taken.read] at right
      exact right
    · obtain ⟨earlier, other, named, taken, names, same⟩ := late position award coordinate pair
      refine ⟨named.badge, (mem_badges_iff created _).mpr ⟨earlier, other, named, taken, rfl⟩, names, ?_⟩
      rw [← same, ← event_of_readAward taken.read]
      rfl

/-- If no award is supplied twice and those taken stand beside their definitions, no pair comes
after all that are taken: each of them has a definition of its own. -/
theorem noneLate_of_nodup (distinct : (awards.map Event.id).Nodup)
    (astray : NoneAstray externals definitions awards awardedPublicKey crate) :
    NoneLate externals definitions awards awardedPublicKey crate := by
  intro position award coordinate pair
  obtain ⟨definition, supplied, defined, author⟩ := pair.supplied
  obtain ⟨named, read, names⟩ := pair.names
  have beside (place : Nat) (first second : Event) (defines : definitions[place]? = some first)
      (awarded : awards[place]? = some second)
      (readable : (@readAward crate externals awardedPublicKey second).isSome = true)
      (left : ((awards.take place).filterMap (@readAward crate externals awardedPublicKey)).length <
        (definitions.filterMap definitionCoordinate).length) : (definitionCoordinate first).isSome = true := by
    obtain ⟨other, found⟩ := Option.isSome_iff_exists.mp readable
    obtain ⟨own, ownDefinition, ownAward, ownCoordinate, stands, ownDefined, _, same, _⟩ :=
      astray place second other ⟨awarded, found, left⟩
    have ids : (awards.map Event.id)[place]? = (awards.map Event.id)[own]? := by
      rw [List.getElem?_map, List.getElem?_map, awarded, stands.award, Option.map_some, Option.map_some, same]
    have inside : place < (awards.map Event.id).length := by
      rw [List.length_map]
      exact (List.getElem?_eq_some_iff.mp awarded).1
    have here : place = own := (List.getElem?_inj inside distinct).mp ids
    subst here
    cases defines.symm.trans stands.definition
    rw [ownDefined]
    rfl
  refine ⟨position, award, named, ⟨supplied.award, read, ?_⟩, names, rfl⟩
  exact length_take_lt_of_beside (new_ok created).1 beside supplied.definition (by rw [defined]; rfl)

end Created

/-- Every badge is right and none is left out exactly when what is taken stands beside the
definition it names and what matches is taken; the first is enough if no award is supplied twice. -/
theorem new_paired_iff {definitions awards : List Event} {awardedPublicKey : PublicKey}
    {badges : ProfileBadges crate} (created : new externals definitions awards awardedPublicKey = .ok badges) :
    (WellPaired externals definitions awards awardedPublicKey badges.badges ↔
      NoneAstray externals definitions awards awardedPublicKey crate ∧
        NoneLate externals definitions awards awardedPublicKey crate) ∧
    ((awards.map Event.id).Nodup →
      (WellPaired externals definitions awards awardedPublicKey badges.badges ↔
        NoneAstray externals definitions awards awardedPublicKey crate)) := by
  refine ⟨wellPaired_iff created, fun distinct => ?_⟩
  rw [wellPaired_iff created]
  exact and_iff_left_of_imp (noneLate_of_nodup created distinct)

/-! ## Examples -/

def sampleDefinition : Event where
  id := .replicate 32 10
  pubkey := .replicate 32 1
  createdAt := 0
  kind := .badgeDefinition
  tags := [⟨["d", "bravery"], by decide⟩]
  content := ""
  sig := .replicate 64 0

/-- An award of somebody's badge for bravery, by its author. -/
def sampleAward (author : PublicKey) : Event where
  id := .replicate 32 11
  pubkey := author
  createdAt := 0
  kind := .badgeAward
  tags := [
    ⟨["a", "30009:" ++ author.toHex hexExternals ++ ":bravery"], List.cons_ne_nil _ _⟩,
    ⟨["p", PublicKey.toHex hexExternals (.replicate 32 3)], List.cons_ne_nil _ _⟩]
  content := ""
  sig := .replicate 64 0

open ExternalContentId (sampleUrls)

def sampleNew (author : PublicKey) : Except Error (ProfileBadges sampleUrls) :=
  new hexExternals [sampleDefinition] [sampleAward author] (.replicate 32 3)

theorem exists_sampleNew {author : PublicKey} (made : (sampleNew author).toOption.isSome = true) :
    ∃ badges, sampleNew author = .ok badges := by
  obtain ⟨badges, found⟩ := Option.isSome_iff_exists.mp made
  exact ⟨badges, toOption_eq_some.mp found⟩

def sampleCoordinate (author : PublicKey) : Coordinate where
  kind := .badgeDefinition
  publicKey := author
  identifier := "bravery"

/-- The definition's author gives the award. -/
theorem new_paired_iff_bravery : ∃ badges, sampleNew (.replicate 32 1) = .ok badges ∧
    WellPaired hexExternals [sampleDefinition] [sampleAward (.replicate 32 1)] (.replicate 32 3)
      badges.badges := by
  obtain ⟨badges, created⟩ := @exists_sampleNew (.replicate 32 1) (by decide +kernel)
  refine ⟨badges, created, ((new_paired_iff created).2 (List.nodup_singleton _)).mpr ?_⟩
  intro position award named taken
  have names : (@readAward sampleUrls hexExternals (.replicate 32 3) (sampleAward (.replicate 32 1))).all
      (fun named => named.definition == sampleCoordinate (.replicate 32 1)) = true := by decide +kernel
  cases position with
  | zero =>
      cases taken.supplied
      have read := taken.read
      rw [read] at names
      exact ⟨0, sampleDefinition, sampleAward (.replicate 32 1), sampleCoordinate (.replicate 32 1),
        ⟨rfl, rfl⟩, rfl, names, rfl, rfl, by decide +kernel⟩
  | succ position => cases taken.supplied

/-- Somebody else's award for bravery is shown for the definition. -/
theorem new_pairs_other : ∃ badges, sampleNew (.replicate 32 2) = .ok badges ∧
    ¬ WellPaired hexExternals [sampleDefinition] [sampleAward (.replicate 32 2)] (.replicate 32 3)
      badges.badges := by
  obtain ⟨badges, created⟩ := @exists_sampleNew (.replicate 32 2) (by decide +kernel)
  refine ⟨badges, created, fun paired => ?_⟩
  obtain ⟨named, read⟩ : ∃ named : NamedAward sampleUrls,
      readAward hexExternals (.replicate 32 3) (sampleAward (.replicate 32 2)) = some named :=
    Option.isSome_iff_exists.mp (by decide +kernel)
  have astray := ((wellPaired_iff created).mp paired).1
  obtain ⟨position, definition, award, defined, supplied, _, _, _, author, _⟩ :=
    astray 0 _ named ⟨rfl, read, Nat.one_pos⟩
  cases position with
  | zero =>
      cases supplied.definition
      cases supplied.award
      exact absurd author (by decide)
  | succ position => cases supplied.definition

end ProfileBadges

end RustNostr
