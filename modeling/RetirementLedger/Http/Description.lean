namespace RetirementLedger.Http

def descriptionLines : List String :=
  [ "openapi: 3.1.0",
    "info:",
    "  title: Agreement Retirement Service",
    "  version: service.v1",
    "  description: |",
    "    Retirement of data-sharing agreements, authorization checks against retired",
    "    agreements, and status of the policy-compliance monitor. Every success body is",
    "    wrapped in an envelope carrying \x60service_contract_version\x60,",
    "    \x60api_contract_version\x60, and \x60data\x60.",
    "paths:",
    "  /v1/health:",
    "    get:",
    "      summary: Liveness and audit delivery counter",
    "      responses:",
    "        \"200\":",
    "          description: Service is up",
    "  /v1/openapi:",
    "    get:",
    "      summary: This document",
    "      responses:",
    "        \"200\":",
    "          description: OpenAPI YAML",
    "  /v1/retirements:",
    "    post:",
    "      summary: Retire an agreement",
    "      parameters:",
    "        - name: x-actor",
    "          in: header",
    "          required: false",
    "          description: Principal performing the retirement. Defaults to \x60management-api\x60.",
    "          schema:",
    "            type: string",
    "      requestBody:",
    "        required: true",
    "        content:",
    "          application/json:",
    "            schema:",
    "              $ref: \"#/components/schemas/RetireRequest\"",
    "      responses:",
    "        \"201\":",
    "          description: Agreement newly retired",
    "          content:",
    "            application/json:",
    "              schema:",
    "                $ref: \"#/components/schemas/RetirementOutcomeEnvelope\"",
    "        \"200\":",
    "          description: Agreement was already retired; the original record is returned",
    "          content:",
    "            application/json:",
    "              schema:",
    "                $ref: \"#/components/schemas/RetirementOutcomeEnvelope\"",
    "        \"400\":",
    "          $ref: \"#/components/responses/Error\"",
    "        \"503\":",
    "          $ref: \"#/components/responses/Error\"",
    "    get:",
    "      summary: List retirements",
    "      parameters:",
    "        - \x7b name: agreement_id, in: query, schema: \x7b type: string \x7d \x7d",
    "        - \x7b name: agreement_id_prefix, in: query, schema: \x7b type: string \x7d \x7d",
    "        - \x7b name: reason, in: query, schema: \x7b type: string \x7d \x7d",
    "        - \x7b name: reason_prefix, in: query, schema: \x7b type: string \x7d \x7d",
    "        - \x7b name: retired_after, in: query, description: Exclusive lower bound (RFC 3339), schema: \x7b type: string, format: date-time \x7d \x7d",
    "        - \x7b name: retired_before, in: query, description: Exclusive upper bound (RFC 3339), schema: \x7b type: string, format: date-time \x7d \x7d",
    "        - \x7b name: offset, in: query, schema: \x7b type: integer, minimum: 0 \x7d \x7d",
    "        - \x7b name: limit, in: query, schema: \x7b type: integer, minimum: 1, maximum: 1000, default: 50 \x7d \x7d",
    "        - \x7b name: order, in: query, schema: \x7b type: string, enum: [asc, desc] \x7d \x7d",
    "      responses:",
    "        \"200\":",
    "          description: One page ordered by retired_at then agreement_id",
    "        \"400\":",
    "          $ref: \"#/components/responses/Error\"",
    "  /v1/retirements/request:",
    "    post:",
    "      summary: Query retirements with raw criteria",
    "      requestBody:",
    "        required: true",
    "        content:",
    "          application/json:",
    "            schema:",
    "              $ref: \"#/components/schemas/QuerySpec\"",
    "      responses:",
    "        \"200\":",
    "          description: One page of matching retirements",
    "        \"400\":",
    "          $ref: \"#/components/responses/Error\"",
    "  /v1/retirements/\x7bagreement_id\x7d:",
    "    get:",
    "      summary: Show the retirement of one agreement",
    "      parameters:",
    "        - \x7b name: agreement_id, in: path, required: true, schema: \x7b type: string \x7d \x7d",
    "      responses:",
    "        \"200\":",
    "          description: Retirement record",
    "        \"404\":",
    "          $ref: \"#/components/responses/Error\"",
    "  /v1/enforcement/\x7bagreement_id\x7d:",
    "    get:",
    "      summary: Authorization decision for an agreement",
    "      parameters:",
    "        - \x7b name: agreement_id, in: path, required: true, schema: \x7b type: string \x7d \x7d",
    "      responses:",
    "        \"200\":",
    "          description: Allow, or deny with a stable code",
    "          content:",
    "            application/json:",
    "              schema:",
    "                $ref: \"#/components/schemas/EnforcementDecision\"",
    "  /v1/monitor/status:",
    "    get:",
    "      summary: Last scan report and watch table of the policy monitor",
    "      responses:",
    "        \"200\":",
    "          description: Monitor status",
    "components:",
    "  responses:",
    "    Error:",
    "      description: Error body",
    "      content:",
    "        application/json:",
    "          schema:",
    "            type: object",
    "            required: [service_contract_version, kind, error]",
    "            properties:",
    "              service_contract_version: \x7b type: string \x7d",
    "              kind:",
    "                type: string",
    "                enum:",
    "                  - invalid_argument",
    "                  - not_found",
    "                  - transient_store_failure",
    "                  - external_dependency_unavailable",
    "                  - persistence",
    "                  - internal",
    "              error: \x7b type: string \x7d",
    "  schemas:",
    "    RetireRequest:",
    "      type: object",
    "      required: [agreementId, reason]",
    "      description: agreement_id is accepted as an alias of agreementId",
    "      properties:",
    "        agreementId: \x7b type: string, minLength: 1 \x7d",
    "        reason:",
    "          type: string",
    "          minLength: 1",
    "          description: MANUAL, EXPIRED, POLICY_VIOLATION:<constraint_id>, or free text",
    "    RetirementRecord:",
    "      type: object",
    "      required: [agreement_id, reason, retired_at, retired_by]",
    "      properties:",
    "        agreement_id: \x7b type: string \x7d",
    "        reason: \x7b type: string \x7d",
    "        retired_at: \x7b type: string, format: date-time \x7d",
    "        retired_by: \x7b type: string \x7d",
    "    RetirementOutcomeEnvelope:",
    "      type: object",
    "      properties:",
    "        service_contract_version: \x7b type: string \x7d",
    "        api_contract_version: \x7b type: string \x7d",
    "        data:",
    "          type: object",
    "          properties:",
    "            record: \x7b $ref: \"#/components/schemas/RetirementRecord\" \x7d",
    "            was_new: \x7b type: boolean \x7d",
    "    QuerySpec:",
    "      type: object",
    "      properties:",
    "        criteria:",
    "          type: array",
    "          items:",
    "            type: object",
    "            required: [field, operator, value]",
    "            properties:",
    "              field: \x7b type: string, enum: [agreement_id, reason, retired_by, retired_at] \x7d",
    "              operator: \x7b type: string, enum: [EQ, LIKE, IN, GT, LT, BETWEEN] \x7d",
    "              value:",
    "                oneOf:",
    "                  - \x7b type: string \x7d",
    "                  - \x7b type: array, items: \x7b type: string \x7d \x7d",
    "        offset: \x7b type: integer, minimum: 0 \x7d",
    "        limit: \x7b type: integer, minimum: 1, maximum: 1000 \x7d",
    "        sort_field: \x7b type: string, enum: [retired_at, agreement_id] \x7d",
    "        sort_order: \x7b type: string, enum: [asc, desc] \x7d",
    "    EnforcementDecision:",
    "      type: object",
    "      required: [decision]",
    "      properties:",
    "        decision: \x7b type: string, enum: [allow, deny] \x7d",
    "        code:",
    "          type: string",
    "          enum:",
    "            - AGREEMENT_RETIRED_MANUAL",
    "            - AGREEMENT_RETIRED_POLICY_VIOLATION",
    "            - AGREEMENT_RETIRED_EXPIRED",
    "            - AGREEMENT_RETIRED",
    "            - RETIREMENT_STATUS_UNAVAILABLE",
    "            - INVALID_AGREEMENT_ID",
    "        message: \x7b type: string \x7d" ]

def description : String := String.join (descriptionLines.map (· ++ "\n"))

end RetirementLedger.Http
