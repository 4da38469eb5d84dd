import WorkerPipeline.Binary64.Basic

set_option autoImplicit false

/-! # Quantities that simulated workers make up

A simulated worker measures nothing: it draws each of its figures from a range.
-/

namespace WorkerPipeline

inductive Quantity where
  | carbonFootprint
  | energyConsumption
  | carbonIntensity
  | powerConsumption
  | latency
  | modelFootprint
  | targetLatency
deriving DecidableEq

namespace Quantity

def all : List Quantity :=
  [carbonFootprint, energyConsumption, carbonIntensity, powerConsumption, latency, modelFootprint,
    targetLatency]

/-- The member of an output that holds the quantity. -/
def member : Quantity → String
  | carbonFootprint => "carbon_footprint"
  | energyConsumption => "energy_consumption"
  | carbonIntensity => "carbon_intensity"
  | powerConsumption => "power_consumption"
  | latency => "latency"
  | modelFootprint => "memory_footprint_of_ml_model"
  | targetLatency => "target_latency"

/-- The bounds of the range in tenths. The upper one is not reached. -/
def range : Quantity → Nat × Nat
  | carbonFootprint => (1, 50)
  | energyConsumption => (10, 500)
  | carbonIntensity => (500, 5000)
  | powerConsumption => (10, 300)
  | latency => (5, 200)
  | modelFootprint => (100, 900)
  | targetLatency => (10, 1000)

def low (q : Quantity) : Binary64 := .ofRatio q.range.1 10

def high (q : Quantity) : Binary64 := .ofRatio q.range.2 10

/-- Whether a number lies in the range. -/
def admits (q : Quantity) (x : Binary64) : Bool := x.inRange q.low q.high

/-- The number that a draw picks: the draw says how far it is from the lower bound to the upper
one. -/
def reading (q : Quantity) (draw : UInt32) : Binary64 :=
  .ofRatio (q.range.1 * UInt32.size + (q.range.2 - q.range.1) * draw.toNat) (10 * UInt32.size)

end Quantity

/-- A number for each quantity. -/
abbrev Readings := Quantity → Binary64

end WorkerPipeline
