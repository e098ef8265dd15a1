import AiForge.Content
import AiForge.Money

/-! # Pricing observations

A rate card is bound to its model by a digest over a canonical text, in which every part is
preceded by its length. An observation is valid only under the digest of its own values. -/
namespace Pricing

open Content Money

structure PriceRate where
  (usd diem : Option DecimalAmount)
  deriving DecidableEq

structure TextPriceTier where
  (input output cacheInput cacheWrite : Option PriceRate)
  deriving DecidableEq

structure TextPricing where
  base : TextPriceTier
  extendedThresholdTokens : Option ℕ
  extended : Option TextPriceTier
  deriving DecidableEq

inductive PricingCatalogOrigin where
  | live | freshCache | staleCache
  deriving DecidableEq

inductive PricingRateBasis where
  | perMillionTokens
  deriving DecidableEq

structure PricingObservation where
  modelId : ModelId
  sourceId : String
  sourceRevision : Option String
  fetchedAt : ℤ
  origin : PricingCatalogOrigin
  basis : PricingRateBasis
  pricing : TextPricing
  rateCardDigest : ContentDigest
  deriving DecidableEq

inductive PricingErrorCode where
  | invalidSource | invalidPricing | invalidDigest

structure PricingError where
  code : PricingErrorCode
  message : String

def maximumIdentityBytes : ℕ := 256

def identityCharacter (c : Char) : Bool :=
  asciiAlpha c || ('0' ≤ c && c ≤ '9') || c == '.' || c == '_' || c == '-' || c == ':' || c == '+'

def validIdentity (value : String) : Bool :=
  value != "" && value.utf8ByteSize ≤ maximumIdentityBytes && value.toList.all identityCharacter

def validRate (rate : Option PriceRate) : Bool :=
  rate.all fun r => r.usd.isSome || r.diem.isSome

def tierHasRate (tier : TextPriceTier) : Bool :=
  tier.input.isSome || tier.output.isSome || tier.cacheInput.isSome || tier.cacheWrite.isSome

def validTier (tier : TextPriceTier) : Bool :=
  validRate tier.input && validRate tier.output && validRate tier.cacheInput &&
    validRate tier.cacheWrite

def framed (value : SafeText.Bytes) : SafeText.Bytes :=
  (Nat.toDigits 10 value.length ++ [':']).map Char.toUInt8 ++ value

def presence (present : Bool) : SafeText.Bytes :=
  framed (SafeText.bytesOf (if present then "present" else "absent"))

def canonicalAmount (value : Option DecimalAmount) : SafeText.Bytes :=
  presence value.isSome ++ value.elim [] fun v => framed (v.toText.map Char.toUInt8)

def canonicalRate (value : Option PriceRate) : SafeText.Bytes :=
  presence value.isSome ++
    value.elim [] fun v => canonicalAmount v.usd ++ canonicalAmount v.diem

def canonicalTier (tier : TextPriceTier) : SafeText.Bytes :=
  canonicalRate tier.input ++ canonicalRate tier.output ++ canonicalRate tier.cacheInput ++
    canonicalRate tier.cacheWrite

def canonicalPricing (modelId : ModelId) (pricing : TextPricing) : SafeText.Bytes :=
  framed (SafeText.bytesOf modelId) ++ framed (SafeText.bytesOf "per-million-tokens") ++
    canonicalTier pricing.base ++ presence pricing.extendedThresholdTokens.isSome ++
    pricing.extendedThresholdTokens.elim [] (fun tokens =>
      framed ((Nat.toDigits 10 tokens).map Char.toUInt8)) ++
    presence pricing.extended.isSome ++ pricing.extended.elim [] canonicalTier

def fnv1a64 (bytes : SafeText.Bytes) : ℕ :=
  bytes.foldl (fun hash byte => (hash ^^^ byte.toNat) * 1099511628211 % 2 ^ 64)
    14695981039346656037

def hexDigits (width value : ℕ) : String :=
  let digits := Nat.toDigits 16 value
  String.ofList (List.replicate (width - digits.length) '0' ++ digits)

def pricingDigest (modelId : ModelId) (pricing : TextPricing) : ContentDigest :=
  let canonical := canonicalPricing modelId pricing
  ⟨"fnv1a64", hexDigits 16 (fnv1a64 canonical), canonical.length⟩

def validatePricing (pricing : TextPricing) : Except PricingError Unit :=
  if !validTier pricing.base || !pricing.extended.all validTier ||
      pricing.extended.isSome != pricing.extendedThresholdTokens.isSome ||
      pricing.extendedThresholdTokens == some 0 ||
      (!tierHasRate pricing.base && !pricing.extended.any tierHasRate) then
    .error ⟨.invalidPricing, "pricing rate card is empty or malformed"⟩
  else .ok ()

def validatePricingObservation (observation : PricingObservation) : Except PricingError Unit :=
  if !validIdentity observation.sourceId || !observation.sourceRevision.all validIdentity then
    .error ⟨.invalidSource, "pricing source identity is empty or malformed"⟩
  else if observation.basis != .perMillionTokens then
    .error ⟨.invalidPricing, "pricing rate basis is unsupported"⟩
  else
    match validatePricing observation.pricing with
    | .error error => .error error
    | .ok () =>
      if observation.rateCardDigest != pricingDigest observation.modelId observation.pricing then
        .error ⟨.invalidDigest, "pricing rate-card digest does not match its values"⟩
      else .ok ()

end Pricing
