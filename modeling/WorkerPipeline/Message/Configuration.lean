import WorkerPipeline.Worker.Basic

set_option autoImplicit false

/-! # Configuration messages

A configuration request asks one worker for something; the response bears the number of the
request's transaction.
-/

namespace WorkerPipeline

inductive ErrorCode where
  | noError
  | internalError
deriving DecidableEq, Inhabited

namespace ErrorCode

def tag : ErrorCode → String
  | noError => "NO_ERROR"
  | internalError => "INTERNAL_ERROR"

/-- The word for the code in error texts. -/
def label : ErrorCode → String
  | noError => "NoError"
  | internalError => "InternalError"

def codec : Codec ErrorCode := .named tag [noError, internalError]

end ErrorCode

structure ConfigurationRequest where
  worker : Worker
  transaction : UInt32
  configuration : String
deriving DecidableEq, Inhabited

structure ConfigurationResponse where
  worker : Worker
  transaction : UInt32
  configuration : String
  success : Bool
  code : ErrorCode
deriving DecidableEq, Inhabited

namespace ConfigurationRequest

def record : Codec.Record ConfigurationRequest where
  fields := [
    .of "node_id" Worker.codec worker (fun v r => { r with worker := v }) true,
    .of "transaction_id" .uint32 transaction (fun v r => { r with transaction := v }) true,
    .of "configuration" .string configuration (fun v r => { r with configuration := v }) true]
  blank := ⟨.unknown, 0, ""⟩
  defaults := false

def codec : Codec ConfigurationRequest := record.codec

/-- The positive answer to a request. -/
def accept (r : ConfigurationRequest) (configuration : String) : ConfigurationResponse :=
  ⟨r.worker, r.transaction, configuration, true, .noError⟩

/-- The negative answer to a request. -/
def decline (r : ConfigurationRequest) (code : ErrorCode) : ConfigurationResponse :=
  ⟨r.worker, r.transaction, "", false, code⟩

end ConfigurationRequest

namespace ConfigurationResponse

def record : Codec.Record ConfigurationResponse where
  fields := [
    .of "node_id" Worker.codec worker (fun v r => { r with worker := v }) true,
    .of "transaction_id" .uint32 transaction (fun v r => { r with transaction := v }) true,
    .of "configuration" .string configuration (fun v r => { r with configuration := v }) true,
    .of "success" .bool success (fun v r => { r with success := v }) true,
    .of "err_code" ErrorCode.codec code (fun v r => { r with code := v }) true]
  blank := ⟨.unknown, 0, "", false, .noError⟩
  defaults := false

def codec : Codec ConfigurationResponse := record.codec

end ConfigurationResponse

end WorkerPipeline
