import Hopline.Line.Carrier

/-! Lines at second hand. Whoever was lent a line, or owns one that is kept elsewhere, hands each byte to the
line itself. -/

namespace Hopline

inductive Handle (σ : Type)
  | direct (line : σ)
  /-- Lent by somebody who goes on owning it. -/
  | lent (handle : Handle σ)
  | owned (handle : Handle σ)
deriving DecidableEq, Inhabited

namespace Handle

variable {σ : Type}

def line : Handle σ → σ
  | direct line => line
  | lent handle => handle.line
  | owned handle => handle.line

def transmit [Carrier σ] (handle : Handle σ) (byte : UInt8) : Handle σ × Except LineError Unit :=
  match handle with
  | direct line =>
    let (line, answer) := Carrier.transmit line byte
    (direct line, answer)
  | lent handle =>
    let (handle, answer) := handle.transmit byte
    (lent handle, answer)
  | owned handle =>
    let (handle, answer) := handle.transmit byte
    (owned handle, answer)

end Handle

instance {σ : Type} [Carrier σ] : Carrier (Handle σ) where
  transmit := Handle.transmit

end Hopline
