/-!
What is measured. The instruments are listed in the order in which they are announced.
-/

namespace Spillway

/-- How an instrument is read: a counter only rises, a gauge moves both ways, a histogram collects
single values. -/
inductive Meter where
  | counter
  | gauge
  | histogram
  deriving Repr, DecidableEq

def Meter.name : Meter → String
  | .counter => "counter"
  | .gauge => "gauge"
  | .histogram => "histogram"

/-- What a spooler measures. -/
inductive Instrument where
  | bytesWritten
  | buffersSpilled
  | requests
  | failedRequests
  | writeLatency
  | queueLength
  deriving Repr, DecidableEq

namespace Instrument

/-- Every instrument, in the order of announcement. -/
def all : List Instrument :=
  [bytesWritten, buffersSpilled, requests, failedRequests, writeLatency, queueLength]

def meter : Instrument → Meter
  | bytesWritten | buffersSpilled | requests | failedRequests => .counter
  | writeLatency => .histogram
  | queueLength => .gauge

def name : Instrument → String
  | bytesWritten => "spill.total_bytes_written"
  | buffersSpilled => "spill.total_buffers_spilled"
  | requests => "spill.total_requests"
  | failedRequests => "spill.total_failed_requests"
  | writeLatency => "spill.write_latency"
  | queueLength => "spill.queue_length"

/-- The unit of an instrument, if it has one. -/
def unit? : Instrument → Option String
  | bytesWritten => some "bytes"
  | buffersSpilled => some "count"
  | writeLatency => some "seconds"
  | requests | failedRequests | queueLength => none

def text : Instrument → String
  | bytesWritten => "total number of bytes written to spill files"
  | buffersSpilled => "total number of buffers written to spill files"
  | requests => "total number of spill requests"
  | failedRequests => "total number of failed spill requests"
  | writeLatency => "Spill request write latency"
  | queueLength => "spill requests queued for writing"

theorem mem_all (instrument : Instrument) : instrument ∈ all := by
  cases instrument <;> decide

end Instrument
end Spillway
