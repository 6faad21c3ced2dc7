import RoadNames.Json.Value
set_option autoImplicit false

namespace RoadNames

open Decimal

inductive LengthUnit where
  | meters
  | kilometers
  | miles
  | feet
  deriving DecidableEq, Repr

namespace LengthUnit

def all : List LengthUnit := [meters, kilometers, miles, feet]

def name : LengthUnit → String
  | meters => "meters"
  | kilometers => "kilometers"
  | miles => "miles"
  | feet => "feet"

def inMeters : LengthUnit → Float
  | meters => 1.0
  | kilometers => 1000.0
  | miles => 1609.344
  | feet => 0.3048

def ofName? (name : String) : Option LengthUnit := all.find? fun u => u.name = name

end LengthUnit

inductive DistanceError where
  | invalid (meters : Float)
  | badUnit (error : LookupError)
  | badNumber (error : Json.CoercionError)

def DistanceError.message : DistanceError → String
  | .invalid x => "distance must be finite and >= 0, got " ++ plainFloat x
  | .badUnit error => error.message "Unknown distance unit"
  | .badNumber error => error.message

/-- Finite and not negative. The negative zero is a length. -/
def isLength (x : Float) : Bool := isFinite x && !(x < 0)

structure Distance where
  meters : Float
  valid : isLength meters = true

namespace Distance

def ofMeters (x : Float) : Except DistanceError Distance :=
  if h : isLength x = true then .ok ⟨x, h⟩ else .error (.invalid x)

def zero : Distance := ⟨0, by decide +kernel⟩

instance : Inhabited Distance := ⟨zero⟩

def ofLength (x : Float) : Distance := if h : isLength x = true then ⟨x, h⟩ else zero

def ofUnits (value : Float) (unit : LengthUnit) : Except DistanceError Distance :=
  ofMeters (value * unit.inMeters)

def read (value unit : Json) : Except DistanceError Distance :=
  match value.toFloat with
  | .error error => .error (.badNumber error)
  | .ok x =>
    match unit.lookUp LengthUnit.ofName? with
    | .error error => .error (.badUnit error)
    | .ok unit => ofUnits x unit

def inMiles (d : Distance) : Float := d.meters / LengthUnit.miles.inMeters

/-- Lengths are ordered as their magnitudes are, so that the two zeros are one length. -/
def key (d : Distance) : Nat := magnitudeKey d.meters

instance : LE Distance := ⟨fun a b => a.key ≤ b.key⟩

instance : LT Distance := ⟨fun a b => a.key < b.key⟩

instance (a b : Distance) : Decidable (a ≤ b) := inferInstanceAs (Decidable (a.key ≤ b.key))

instance (a b : Distance) : Decidable (a < b) := inferInstanceAs (Decidable (a.key < b.key))

def same (a b : Distance) : Bool := a.key = b.key

theorem le_trans {a b c : Distance} (hab : a ≤ b) (hbc : b ≤ c) : a ≤ c := Nat.le_trans hab hbc

end Distance

inductive LocationError where
  | nonFinite (lat lon : Float)
  | outOfRange (lat lon : Float)

def LocationError.message : LocationError → String
  | .nonFinite lat lon => "non-finite coordinate (" ++ plainFloat lat ++ ", " ++ plainFloat lon ++ ")"
  | .outOfRange lat lon =>
    "coordinate out of range (" ++ plainFloat lat ++ ", " ++ plainFloat lon ++ ")"

def isFinitePair (lat lon : Float) : Bool := isFinite lat && isFinite lon

def isOnGlobe (lat lon : Float) : Bool := -90 ≤ lat && lat ≤ 90 && -180 ≤ lon && lon ≤ 180

structure Location where
  lat : Float
  lon : Float
  finite : isFinitePair lat lon = true
  onGlobe : isOnGlobe lat lon = true

structure Node where
  lat : UInt64
  lon : UInt64
  deriving DecidableEq, Repr

/-- Meters. -/
def earthRadius : Float := 6371000.0

def radians (degrees : Float) : Float := degrees * (3.141592653589793 / 180.0)

/-- The great-circle distance in meters between two places in degrees. Rounding can push the chord of
antipodes above one. -/
def haversine (lat₁ lon₁ lat₂ lon₂ : Float) : Float :=
  let p₁ := radians lat₁
  let p₂ := radians lat₂
  let s := Float.sin ((p₂ - p₁) / 2)
  let t := Float.sin (radians (lon₂ - lon₁) / 2)
  let a := s * s + Float.cos p₁ * Float.cos p₂ * (t * t)
  let chord := Float.sqrt a
  2 * earthRadius * Float.asin (if chord < 1 then chord else 1)

namespace Location

def ofDegrees (lat lon : Float) : Except LocationError Location :=
  if hf : isFinitePair lat lon = true then
    if hg : isOnGlobe lat lon = true then .ok ⟨lat, lon, hf, hg⟩
    else .error (.outOfRange lat lon)
  else .error (.nonFinite lat lon)

def rounded (p : Location) (digits : Int) : Float × Float :=
  (roundPlaces p.lat digits, roundPlaces p.lon digits)

def node (p : Location) (digits : Int) : Node :=
  ⟨equalityKey (p.rounded digits).1, equalityKey (p.rounded digits).2⟩

def point (p : Location) : Node := ⟨equalityKey p.lat, equalityKey p.lon⟩

def same (p q : Location) : Bool := p.point = q.point

def distanceTo (p q : Location) : Distance :=
  Distance.ofLength (haversine p.lat p.lon q.lat q.lon)

end Location

end RoadNames
