/-!
# Registers of the board

The board drives its motors with timer 3, four streams of the first DMA controller, the request
multiplexer in front of it, and the pins of group B. This file names the registers and the fields
that the library touches, and lists the kinds of access to them.
-/

namespace Rotor.Board

/-- A register, with its number where there are several of a kind. -/
inductive Register
  /-- Timer: control. -/
  | timerControl
  /-- Timer: divider of the clock. -/
  | timerPrescaler
  /-- Timer: period. -/
  | timerReload
  /-- Timer: the registers that a burst writes. -/
  | timerBurst
  /-- Timer: events made by software. -/
  | timerEvent
  /-- Timer: enables and polarities of the channels. -/
  | timerEnable
  /-- Timer: status flags. -/
  | timerStatus
  /-- Timer: enables of the DMA requests. -/
  | timerRequest
  /-- Timer: the counter. -/
  | timerCounter
  /-- Timer: modes of two channels, read as output modes. -/
  | timerOutputMode (half : Nat)
  /-- Timer: modes of two channels, read as input modes. -/
  | timerInputMode (half : Nat)
  /-- Timer: compare or capture value of a channel. -/
  | timerCompare (channel : Nat)
  /-- DMA: status flags of four streams. -/
  | dmaStatus (half : Nat)
  /-- DMA: flags to clear of four streams. -/
  | dmaClear (half : Nat)
  /-- DMA: control of a stream. -/
  | streamControl (stream : Nat)
  /-- DMA: address of the peripheral. -/
  | streamPeripheral (stream : Nat)
  /-- DMA: address of the memory. -/
  | streamMemory (stream : Nat)
  /-- DMA: number of words. -/
  | streamCount (stream : Nat)
  /-- DMA: control of the intermediate buffer. -/
  | streamBuffer (stream : Nat)
  /-- Multiplexer: the request that a stream follows. -/
  | requestRoute (stream : Nat)
  /-- Pins: pull resistors. -/
  | pinPull
  /-- Pins: modes. -/
  | pinMode
  /-- Pins: alternate functions of eight pins. -/
  | pinFunction (half : Nat)
  deriving DecidableEq, Repr, Inhabited

namespace Register

/-- The name of a register in a trace. -/
def name : Register → String
  | timerControl => "TIM3.CR1"
  | timerPrescaler => "TIM3.PSC"
  | timerReload => "TIM3.ARR"
  | timerBurst => "TIM3.DCR"
  | timerEvent => "TIM3.EGR"
  | timerEnable => "TIM3.CCER"
  | timerStatus => "TIM3.SR"
  | timerRequest => "TIM3.DIER"
  | timerCounter => "TIM3.CNT"
  | timerOutputMode half => s!"TIM3.CCMR_OUTPUT{half}"
  | timerInputMode half => s!"TIM3.CCMR_INPUT{half}"
  | timerCompare channel => s!"TIM3.CCR{channel}"
  | dmaStatus half => s!"DMA1.ISR{half}"
  | dmaClear half => s!"DMA1.IFCR{half}"
  | streamControl stream => s!"DMA1.S{stream}.CR"
  | streamPeripheral stream => s!"DMA1.S{stream}.PAR"
  | streamMemory stream => s!"DMA1.S{stream}.M0AR"
  | streamCount stream => s!"DMA1.S{stream}.NDTR"
  | streamBuffer stream => s!"DMA1.S{stream}.FCR"
  | requestRoute stream => s!"DMAMUX1.CCR{stream}"
  | pinPull => "GPIOB.PUPDR"
  | pinMode => "GPIOB.MODER"
  | pinFunction half => s!"GPIOB.AFR{half}"

end Register

/-- A field of a register, with its number where a register has several of a kind. -/
inductive Field
  | counterEnable
  | reloadPreload
  | reload
  | burstBase
  | burstLength
  | updateEvent
  | channelSelect (slot : Nat)
  | outputMode (slot : Nat)
  | outputPreload (slot : Nat)
  | inputFilter (slot : Nat)
  | compare
  | channelEnable (channel : Nat)
  | polarity (channel : Nat)
  | complementPolarity (channel : Nat)
  | captureFlag (channel : Nat)
  | counter
  | channelRequest (channel : Nat)
  | updateRequest
  | completeFlag (slot : Nat)
  | halfFlag (slot : Nat)
  | transferErrorFlag (slot : Nat)
  | directErrorFlag (slot : Nat)
  | bufferErrorFlag (slot : Nat)
  | streamEnable
  | transferDirection
  | memorySize
  | peripheralSize
  | memoryIncrement
  | peripheralIncrement
  | priority
  | wordCount
  | directDisable
  | requestId
  | pull (pin : Nat)
  | mode (pin : Nat)
  | function (pin : Nat)
  deriving DecidableEq, Repr, Inhabited

namespace Field

/-- The name of a field in a trace. -/
def name : Field → String
  | counterEnable => "cen"
  | reloadPreload => "arpe"
  | reload => "arr"
  | burstBase => "dba"
  | burstLength => "dbl"
  | updateEvent => "ug"
  | channelSelect _ => "ccs"
  | outputMode _ => "ocm"
  | outputPreload _ => "ocpe"
  | inputFilter _ => "icf"
  | compare => "ccr"
  | channelEnable _ => "cce"
  | polarity _ => "ccp"
  | complementPolarity _ => "ccnp"
  | captureFlag _ => "ccif"
  | counter => "cnt"
  | channelRequest _ => "ccde"
  | updateRequest => "ude"
  | completeFlag _ => "tcif"
  | halfFlag _ => "htif"
  | transferErrorFlag _ => "teif"
  | directErrorFlag _ => "dmeif"
  | bufferErrorFlag _ => "feif"
  | streamEnable => "en"
  | transferDirection => "dir"
  | memorySize => "msize"
  | peripheralSize => "psize"
  | memoryIncrement => "minc"
  | peripheralIncrement => "pinc"
  | priority => "pl"
  | wordCount => "ndt"
  | directDisable => "dmdis"
  | requestId => "dmareq_id"
  | pull _ => "pupdr"
  | mode _ => "moder"
  | function _ => "afr"

/-- The number of a field among those of its kind. -/
def index? : Field → Option Nat
  | channelSelect slot => some slot
  | outputMode slot => some slot
  | outputPreload slot => some slot
  | inputFilter slot => some slot
  | channelEnable channel => some channel
  | polarity channel => some channel
  | complementPolarity channel => some channel
  | captureFlag channel => some channel
  | channelRequest channel => some channel
  | completeFlag slot => some slot
  | halfFlag slot => some slot
  | transferErrorFlag slot => some slot
  | directErrorFlag slot => some slot
  | bufferErrorFlag slot => some slot
  | pull pin => some pin
  | mode pin => some pin
  | function pin => some pin
  | _ => none

end Field

/-- A setting that has a name of its own. -/
inductive Setting
  /-- No pull resistor. -/
  | floating
  /-- A pull resistor to the supply. -/
  | pullUp
  /-- A pin that belongs to a peripheral. -/
  | alternate
  /-- A channel that compares. -/
  | output
  /-- A line that is high until the compare value. -/
  | pulseMode
  /-- A channel that captures its own input. -/
  | ownInput
  /-- An input that is taken as it is. -/
  | noFilter
  | memoryToPeripheral
  | peripheralToMemory
  /-- Words of 32 bits. -/
  | word32
  | veryHigh
  deriving DecidableEq, Repr, Inhabited

/-- The name of a setting in a trace. -/
def Setting.name : Setting → String
  | floating => "FLOATING"
  | pullUp => "PULLUP"
  | alternate => "ALTERNATE"
  | output => "OUTPUT"
  | pulseMode => "PWMMODE1"
  | ownInput => "TI4"
  | noFilter => "NOFILTER"
  | memoryToPeripheral => "MEMORYTOPERIPHERAL"
  | peripheralToMemory => "PERIPHERALTOMEMORY"
  | word32 => "BITS32"
  | veryHigh => "VERYHIGH"

/-- What is put into a field. -/
inductive Value
  | number (value : Nat)
  | flag (value : Bool)
  | setting (value : Setting)
  deriving DecidableEq, Repr, Inhabited

/-- A region of memory that the DMA reaches. -/
inductive Region
  /-- The frame that a channel sends. -/
  | output (channel : Nat)
  /-- The edges that a channel captures. -/
  | capture (channel : Nat)
  /-- The words of a burst. -/
  | burst
  deriving DecidableEq, Repr, Inhabited

/-- What is put into a register as a whole. -/
inductive Word
  | number (value : Nat)
  | address (region : Region)
  deriving DecidableEq, Repr, Inhabited

/-- An access to the hardware. -/
inductive Access
  /-- Writes a register, from all fields zero. -/
  | write (register : Register) (fields : List (Field × Value))
  /-- Changes fields of a register. -/
  | modify (register : Register) (fields : List (Field × Value))
  /-- Writes a register as a whole. -/
  | writeWord (register : Register) (word : Word)
  /-- Reads a register. -/
  | read (register : Register)
  /-- A stream starts to send words. -/
  | transferOut (stream : Nat) (words : List UInt32)
  /-- A stream starts to receive a number of words. -/
  | transferIn (stream : Nat) (count : Nat)
  deriving DecidableEq, Repr, Inhabited

end Rotor.Board
